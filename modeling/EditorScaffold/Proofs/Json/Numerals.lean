import EditorScaffold.Proofs.Json.Digits
import EditorScaffold.Proofs.Json.Reading

/-! # Numerals are read back

The text of a numeral is read back part by part, each up to the character that starts the next one: a digit ends with
the digits, a fraction starts with a point and an exponent with its letter (`reads_numeral`). Where the value of the
numeral matters, it is read if there is one (`reads_number`). -/

namespace EditorScaffold.Json

/-- The text of the digits after the point, if there are any. -/
def fractionText (ds : List Digit) : Text := if ds = [] then [] else '.' :: ds.map digitChar

/-- The text of an exponent, if there is one. -/
def exponentText : Option Int → Text
  | none => []
  | some e => DecimalStyle.exponentText e

/-- The text of a numeral after its sign. -/
def Numeral.unsigned (n : Numeral) : Text := Text.ofNat n.whole ++ (fractionText n.fraction ++ exponentText n.exponent)

theorem Numeral.text_eq (n : Numeral) : n.text = (if n.negative then ['-'] else []) ++ n.unsigned := by
  obtain ⟨negative, whole, fraction, exponent⟩ := n
  unfold text unsigned fractionText
  cases exponent <;> simp only [exponentText, List.append_assoc]

namespace Reader

variable {s : Text} {ds : List Digit} {ending : Fault}

/-! ### Digits -/

/-- No digit comes next. -/
def Undigited (s : Text) : Prop := ∀ c ∈ s.head?, digit? c = none

theorem Ended.undigited (h : Ended s) : Undigited s := by
  obtain rfl | ⟨t, rfl | rfl | rfl⟩ := h.cases
  · exact nofun
  all_goals rintro c ⟨⟩; decide

theorem undigited_cons {c : Char} (h : digit? c = none) (s : Text) : Undigited (c :: s) := by
  rintro d ⟨⟩
  exact h

theorem reads_run {p : Char → Bool} {t : Text} (ht : ∀ c ∈ t, p c = true) (hs : ∀ c ∈ s.head?, p c = false) :
    Reads (run p) (t ++ s) t s := by
  have hnone : s.takeWhile p = [] := by
    cases s with
    | nil => rfl
    | cons c s => rw [List.takeWhile_cons, hs c rfl]; rfl
  intro o
  refine ⟨((⟨t ++ s, o⟩ : Cursor).advance t.length).offset, ?_⟩
  unfold run
  dsimp only
  rw [List.takeWhile_append_of_pos ht, hnone, List.append_nil, Cursor.advance]
  dsimp only
  rw [List.drop_left]

theorem filterMap_map_digitChar (ds : List Digit) : (ds.map digitChar).filterMap digit? = ds := by
  rw [List.filterMap_map]
  exact (List.filterMap_congr fun d _ => digit?_digitChar d).trans List.filterMap_some

theorem reads_digits (ds : List Digit) (hs : Undigited s) : Reads digits (ds.map digitChar ++ s) ds s := by
  have hrun : Reads (run fun c => (digit? c).isSome) (ds.map digitChar ++ s) (ds.map digitChar) s := by
    refine reads_run (fun c hc => ?_) fun c hc => by rw [hs c hc]; rfl
    obtain ⟨d, -, rfl⟩ := List.mem_map.1 hc
    rw [digit?_digitChar]
    rfl
  have hdigits := hrun.map (List.filterMap digit?)
  rw [filterMap_map_digitChar] at hdigits
  exact hdigits

/-! ### Parts of a numeral -/

/-- **The whole part is read back**: the digit zero, or digits that do not start with a zero. -/
theorem reads_wholePart (n : Nat) (hs : Undigited s) : Reads (wholePart ending) (Text.ofNat n ++ s) n s := by
  rw [ofNat_eq_map]
  by_cases hn : n = 0
  · subst hn
    have hnext : s.head?.bind digit? = none := by
      cases s with
      | nil => rfl
      | cons c s => exact hs c rfl
    refine (reads_peek? _).bind ((reads_skip '0' s).bind ((reads_peek? s).bind ?_))
    rw [hnext]
    exact .pure 0 s
  · obtain ⟨d, ds, hds⟩ := List.exists_cons_of_ne_nil (toDigits_ne_nil n)
    have hzero : d ≠ 0 := by
      rintro rfl
      exact toDigits_head?_ne hn (by rw [hds]; rfl)
    have hread := (reads_digits (toDigits n) hs).map ofDigits
    rw [ofDigits_toDigits] at hread
    refine (reads_peek? _).bind ?_
    rw [hds] at hread ⊢
    split
    · next h => cases h
    · next h => exact absurd ((digitChar_eq_zero_iff d).1 (Option.some.inj h)) hzero
    · next h =>
      obtain rfl := Option.some.inj h
      rw [digit?_digitChar]
      exact hread

theorem reads_fractionPart (hne : ds ≠ []) (hs : Undigited s) :
    Reads (fractionPart ending) (ds.map digitChar ++ s) ds s := by
  refine (reads_digits ds hs).bind ?_
  rw [if_neg hne]
  exact .pure ds s

theorem reads_exponentPart (e : Int) (hs : Undigited s) :
    Reads (exponentPart ending) ((DecimalStyle.exponentText e).tail ++ s) e s := by
  have hdigits : Reads (fractionPart ending) (Text.ofNat e.natAbs ++ s) (toDigits e.natAbs) s := by
    rw [ofNat_eq_map]
    exact reads_fractionPart (toDigits_ne_nil e.natAbs) hs
  unfold DecimalStyle.exponentText
  split
  · next h =>
    have hvalue : (if false then -(ofDigits (toDigits e.natAbs) : Int) else ofDigits (toDigits e.natAbs)) = e := by
      rw [ofDigits_toDigits, if_neg Bool.false_ne_true]
      omega
    refine (reads_peek? _).bind (((reads_skip '+' _).then (.pure false _)).bind (hdigits.bind ?_))
    rw [hvalue]
    exact .pure e s
  · next h =>
    have hvalue : (if true then -(ofDigits (toDigits e.natAbs) : Int) else ofDigits (toDigits e.natAbs)) = e := by
      rw [ofDigits_toDigits, if_pos rfl]
      omega
    refine (reads_peek? _).bind (((reads_skip '-' _).then (.pure true _)).bind (hdigits.bind ?_))
    rw [hvalue]
    exact .pure e s

/-! ### Whole numerals -/

theorem exponentText_some (e : Int) (s : Text) :
    exponentText (some e) ++ s = 'e' :: ((DecimalStyle.exponentText e).tail ++ s) := by
  show DecimalStyle.exponentText e ++ s = _
  unfold DecimalStyle.exponentText
  split <;> rfl

theorem undigited_exponentText (exponent : Option Int) (hs : Ended s) : Undigited (exponentText exponent ++ s) := by
  cases exponent with
  | none => exact hs.undigited
  | some e =>
    rw [exponentText_some]
    exact undigited_cons (by decide) _

theorem undigited_fractionText (ds : List Digit) (hs : Undigited s) : Undigited (fractionText ds ++ s) := by
  unfold fractionText
  split
  · exact hs
  · exact undigited_cons (by decide) _

/-- **A numeral is read back** after its sign. -/
theorem reads_numeral (n : Numeral) (ending : Fault) (hs : Ended s) :
    Reads (numeral ending n.negative) (n.unsigned ++ s) n s := by
  obtain ⟨negative, whole, fraction, exponent⟩ := n
  have hundigited := undigited_exponentText exponent hs
  unfold Numeral.unsigned
  dsimp only
  rw [List.append_assoc, List.append_assoc]
  refine (reads_wholePart whole (undigited_fractionText fraction hundigited)).bind ?_
  cases exponent with
  | none =>
    by_cases hf : fraction = []
    · subst hf
      obtain rfl | ⟨t, rfl | rfl | rfl⟩ := hs.cases <;>
        exact (reads_peek? _).bind <| Reads.bind (.pure [] _)
          ((reads_peek? _).bind (Reads.bind (.pure none _) (.pure _ _)))
    · rw [fractionText, if_neg hf]
      refine (reads_peek? _).bind (Reads.bind ((reads_skip '.' _).then (reads_fractionPart hf hundigited)) ?_)
      obtain rfl | ⟨t, rfl | rfl | rfl⟩ := hs.cases <;>
        exact (reads_peek? _).bind (Reads.bind (.pure none _) (.pure _ _))
  | some e =>
    have hexponent : Reads (skip 1 *> some <$> exponentPart ending)
        ('e' :: ((DecimalStyle.exponentText e).tail ++ s)) (some e) s :=
      (reads_skip 'e' _).then ((reads_exponentPart e hs.undigited).map some)
    rw [exponentText_some] at hundigited ⊢
    by_cases hf : fraction = []
    · subst hf
      exact (reads_peek? _).bind (Reads.bind (.pure [] _) ((reads_peek? _).bind (hexponent.bind (.pure _ s))))
    · rw [fractionText, if_neg hf]
      exact (reads_peek? _).bind <| Reads.bind ((reads_skip '.' _).then (reads_fractionPart hf hundigited))
        ((reads_peek? _).bind (hexponent.bind (.pure _ s)))

/-- **A numeral that has a value is read back** where its value matters. -/
theorem reads_number {n : Numeral} (hn : n.number?.isSome) (hs : Ended s) :
    Reads (number n.negative) (n.unsigned ++ s) n s := by
  intro o
  obtain ⟨o', h⟩ := reads_numeral n .endOfValue hs o
  refine ⟨o', ?_⟩
  unfold number
  rw [h]
  dsimp only
  rw [if_pos hn]

end Reader

end EditorScaffold.Json
