import EditorScaffold.Json.Reader.Skip
import EditorScaffold.Json.Record

/-! # What readers read

A reader that succeeds takes one rest of a text to a later one, and what it reads does not depend on where in a text
it stands: `Reads r s a t` says that from the rest `s` on the reader `r` gives `a` and leaves `t`. Readers are put
together from readers, and so are these facts: `Reads.bind` for one step after the other, and `Loops.reads` for a step
that is repeated. The facts about brackets, commas and colons are about texts without blanks. -/

namespace EditorScaffold.Json.Reader

variable {α β σ : Type} {r : Reader α} {s t u : Text} {a : α} {b : β} {c : Char}

/-- **From the rest `s` on the reader gives `a` and leaves `t`**, wherever `s` stands in a text. -/
def Reads (r : Reader α) (s : Text) (a : α) (t : Text) : Prop := ∀ o, ∃ o', r ⟨s, o⟩ = .ok (a, ⟨t, o'⟩)

/-! ### One step after the other -/

theorem Reads.pure (a : α) (s : Text) : Reads (pure a) s a s := fun o => ⟨o, rfl⟩

theorem Reads.bind {f : α → Reader β} (h : Reads r s a t) (hf : Reads (f a) t b u) : Reads (r >>= f) s b u := by
  intro o
  obtain ⟨o', h⟩ := h o
  obtain ⟨o'', hf⟩ := hf o'
  refine ⟨o'', ?_⟩
  show (r ⟨s, o⟩ >>= fun p => f p.1 p.2) = _
  rw [h]
  exact hf

theorem Reads.then {q : Reader β} (h : Reads r s a t) (hq : Reads q t b u) : Reads (r *> q) s b u := h.bind hq

theorem Reads.map (h : Reads r s a t) (f : α → β) : Reads (f <$> r) s (f a) t := by
  intro o
  obtain ⟨o', h⟩ := h o
  refine ⟨o', ?_⟩
  show (r ⟨s, o⟩ >>= fun p => _) = _
  rw [h]
  rfl

theorem Reads.placed (h : Reads r s a t) : Reads (placed r) s a t := by
  intro o
  obtain ⟨o', h⟩ := h o
  refine ⟨o', ?_⟩
  unfold Reader.placed
  rw [h]

theorem Reads.ofExcept {e : Except Fault α} (h : e = .ok a) (s : Text) : Reads (ofExcept e) s a s := by
  rw [h]
  exact .pure a s

/-! ### Characters -/

theorem reads_peek? (s : Text) : Reads peek? s s.head? s := fun o => ⟨o, rfl⟩

theorem reads_skip (c : Char) (s : Text) : Reads (skip 1) (c :: s) () s := fun _ => ⟨_, rfl⟩

theorem reads_next?_nil : Reads next? [] none [] := fun _ => ⟨_, rfl⟩

theorem reads_next? (hc : isBlank c = false) (s : Text) : Reads next? (c :: s) (some c) (c :: s) := by
  intro o
  have hrun : (c :: s).takeWhile isBlank = [] := by rw [List.takeWhile_cons, hc]; rfl
  refine ⟨o, ?_⟩
  show (Except.ok (((c :: s).takeWhile isBlank), _) >>= fun p => peek? p.2) = _
  rw [hrun]
  rfl

theorem reads_literal (l s : Text) : Reads (literal l) (l ++ s) () s := by
  induction l with
  | nil => exact .pure () s
  | cons c l ih =>
    refine (reads_peek? _).bind ?_
    show Reads (if c = c then skip 1 *> literal l else _) (c :: (l ++ s)) () s
    rw [if_pos rfl]
    exact (reads_skip c _).then ih

/-! ### Repetition -/

/-- **A repeated step ends**: it goes on from state to state, shorter rests before it each time, and then has a
result. -/
inductive Loops (step : σ → Reader (σ ⊕ β)) : σ → Text → β → Text → Prop
  | stop {x s b t} : Reads (step x) s (.inr b) t → Loops step x s b t
  | next {x y s b t u} : Reads (step x) s (.inl y) t → t.length < s.length → Loops step y t b u → Loops step x s b u

theorem Loops.reads {step : σ → Reader (σ ⊕ β)} {x : σ} (h : Loops step x s b t) : Reads (loop step x) s b t := by
  have hfuel : ∀ fuel, s.length < fuel → Reads (iterate step fuel x) s b t := by
    induction h with
    | stop hstep =>
      intro fuel hlt
      obtain ⟨fuel, rfl⟩ := Nat.exists_eq_add_one_of_ne_zero (Nat.ne_of_gt (Nat.zero_lt_of_lt hlt))
      exact hstep.bind (.pure _ _)
    | next hstep hlt' _ ih =>
      intro fuel hlt
      obtain ⟨fuel, rfl⟩ := Nat.exists_eq_add_one_of_ne_zero (Nat.ne_of_gt (Nat.zero_lt_of_lt hlt))
      exact hstep.bind (ih fuel (by omega))
  exact fun o => hfuel _ (Nat.lt_succ_self _) o

/-! ### Punctuation -/

/-- **What may follow a value**: nothing, a comma, or the end of a bracket. -/
def Ended (s : Text) : Prop := ∀ c ∈ s.head?, c = ',' ∨ c = ']' ∨ c = '\x7d'

theorem ended_nil : Ended [] := nofun

theorem ended_comma (s : Text) : Ended (',' :: s) := by rintro c ⟨⟩; exact Or.inl rfl

theorem ended_closing (b : Bracket) (s : Text) : Ended (b.closing :: s) := by
  rintro c ⟨⟩
  cases b
  · exact Or.inr (Or.inl rfl)
  · exact Or.inr (Or.inr rfl)

/-- A rest after a value is empty, or starts with one of three characters. -/
theorem Ended.cases (h : Ended s) : s = [] ∨ ∃ t, s = ',' :: t ∨ s = ']' :: t ∨ s = '\x7d' :: t := by
  cases s with
  | nil => exact Or.inl rfl
  | cons c s =>
    obtain rfl | rfl | rfl := h c rfl
    · exact Or.inr ⟨s, Or.inl rfl⟩
    · exact Or.inr ⟨s, Or.inr (Or.inl rfl)⟩
    · exact Or.inr ⟨s, Or.inr (Or.inr rfl)⟩

theorem reads_colon (s : Text) : Reads colon (':' :: s) () s :=
  (reads_next? (by decide) s).bind (reads_skip ':' s)

theorem reads_close (b : Bracket) (s : Text) : Reads (close b) (b.closing :: s) () s := by
  have hblank : isBlank b.closing = false := by cases b <;> decide
  refine (reads_next? hblank s).bind ?_
  show Reads (if b.closing = b.closing then skip 1 else _) (b.closing :: s) () s
  rw [if_pos rfl]
  exact reads_skip b.closing s

theorem Reads.closing {b : Bracket} (h : Reads r s a (b.closing :: t)) : Reads (closing b r) s a t := by
  intro o
  obtain ⟨o', h⟩ := h o
  obtain ⟨o'', hclose⟩ := reads_close b t o'
  refine ⟨o'', ?_⟩
  unfold Reader.closing
  rw [h]
  dsimp only
  rw [hclose]

theorem Reads.bracketed {b : Bracket} {levels : Nat} {inside : Nat → Reader α}
    (h : Reads (inside levels) s a (b.closing :: t)) :
    Reads (bracketed b (levels + 1) inside) (b.opening :: s) a t :=
  (reads_skip b.opening s).then h.closing

theorem reads_nextItem_end (first : Bool) (s : Text) : Reads (nextItem first) (']' :: s) false (']' :: s) :=
  (reads_next? (by decide) s).bind (.pure false _)

theorem reads_nextItem_first (hblank : isBlank c = false) (hc : c ≠ ']') (s : Text) :
    Reads (nextItem true) (c :: s) true (c :: s) := by
  refine (reads_next? hblank s).bind ?_
  split
  · next h => cases h
  · next h => exact absurd (Option.some.inj h) hc
  · exact .pure true _

theorem reads_nextItem_comma (hblank : isBlank c = false) (hc : c ≠ ']') (s : Text) :
    Reads (nextItem false) (',' :: c :: s) true (c :: s) := by
  refine (reads_next? (by decide) _).bind ?_
  refine (reads_skip ',' _).bind ((reads_next? hblank s).bind ?_)
  split
  · next h => cases h
  · next h => exact absurd (Option.some.inj h) hc
  · exact .pure true _

theorem reads_nextMember_end (first : Bool) (s : Text) :
    Reads (nextMember first) ('\x7d' :: s) false ('\x7d' :: s) :=
  (reads_next? (by decide) s).bind (.pure false _)

theorem reads_nextMember_first (s : Text) : Reads (nextMember true) ('"' :: s) true s :=
  (reads_next? (by decide) s).bind ((reads_skip '"' s).then (.pure true s))

theorem reads_nextMember_comma (s : Text) : Reads (nextMember false) (',' :: '"' :: s) true s :=
  (reads_next? (by decide) _).bind <| (reads_skip ',' _).bind <|
    (reads_next? (by decide) s).bind ((reads_skip '"' s).then (.pure true s))

/-! ### Whole texts -/

theorem Reads.readAll (h : Reads r s a []) : readAll r s = .ok a := by
  have hfinish : Reads (r <* finish) s a [] := h.bind ((reads_next?_nil.bind (.pure () [])).bind (.pure a []))
  obtain ⟨o', hfinish⟩ := hfinish 0
  unfold Reader.readAll
  rw [Cursor.start, hfinish]

end EditorScaffold.Json.Reader
