import EditorScaffold.Proofs.Store.Growth

/-! # Calls on many files

Editors are written to any paths of a memory, one call after the other. What a call gives depends on its own
path only, however this is spelled, and it changes nothing else: it fails with the error of the first operation
that fails and leaves all files as they are, or it makes a file where nothing was, or merges into the file that
was there (`settles_attempt`). Two memories that agree at a path therefore still agree there after any calls, of
which those on other paths may be left out (`AgreeAt.writeAll`). -/

namespace EditorScaffold

/-- An editor that is to be written to a path. -/
structure WriteCall where
  path : Text
  generated : Text
  guardSymbol : Text

/-- Makes calls one after the other, and tells what each of them gives. A call that fails stops no other. -/
def writeAll {m : Type → Type} [Monad m] [FileStore m] :
    List WriteCall → m (List (Except FileError WriteOutcome))
  | [] => return []
  | c :: cs => do
    let result ← (writeEditor c.path c.generated c.guardSymbol).run
    let results ← writeAll cs
    return result :: results

namespace Memory

variable {s t : Memory} {c : WriteCall} {p q : Text}

/-! ### One call -/

/-- What a call gives, and the memory after it. -/
def attempt (s : Memory) (c : WriteCall) : Except FileError WriteOutcome × Memory :=
  effect (writeEditor (m := StateM Memory) c.path c.generated c.guardSymbol) s

/-- The first operation at the path that fails does so with `e`: the read of what is there, or else the
write, whatever is written. -/
def FailsWith (s : Memory) (path : Text) (e : FileError) : Prop :=
  (s.present path = true ∧ s.read path = .error e) ∨
    (s.present path = true → ∃ text, s.read path = .ok text) ∧ ∀ text, s.write path text = .error e

/-- **How a call ends** that finds the memory `s`, gives `result` and leaves the memory `t`. -/
structure Settles (s : Memory) (c : WriteCall) (result : Except FileError WriteOutcome) (t : Memory) :
    Prop where
  /-- It fails with the error of the first operation that fails. -/
  error_iff : ∀ e, result = .error e ↔ s.FailsWith c.path e
  /-- A call that fails changes nothing. -/
  unchanged : ∀ e, result = .error e → t = s
  /-- A call that does not fail creates a file if and only if there was nothing at the path. -/
  created_iff : result = .ok .created ↔ (∃ o, result = .ok o) ∧ s.present c.path = false
  /-- The new file is the generated text. -/
  created : result = .ok .created → t.file? c.path = some c.generated
  /-- A call that does not fail appends if and only if there was a file, and tells what the merge did. -/
  appended_iff : ∀ b, result = .ok (.appended b) ↔ (∃ o, result = .ok o) ∧
    ∃ e, s.file? c.path = some e ∧ (Merge.merge e c.generated c.guardSymbol).inserted = b
  /-- The file becomes the merged text. -/
  appended : ∀ b e, result = .ok (.appended b) → s.file? c.path = some e →
    t.file? c.path = some (Merge.merge e c.generated c.guardSymbol).text
  /-- No other file changes. -/
  others : ∀ p, ¬ Path.Same p c.path → t.file? p = s.file? p
  unreadable : t.unreadable = s.unreadable
  readOnly : t.readOnly = s.readOnly

theorem present_of_unreadable (h : s.isUnreadable p = true) : s.present p = true := by simp [present, h]

theorem read_of_unreadable (h : s.isUnreadable p = true) : s.read p = .error .unreadable := if_pos h

theorem write_of_readOnly (h : s.readOnly = true) (path text : Text) :
    s.write path text = .error .readOnly := by
  rw [write, if_pos h]

/-! ### The first failure -/

theorem FailsWith.unique {e e' : FileError} (h : s.FailsWith p e) (h' : s.FailsWith p e') : e = e' := by
  rcases h with ⟨hp, hr⟩ | ⟨hr, hw⟩ <;> rcases h' with ⟨hp', hr'⟩ | ⟨hr', hw'⟩
  · exact Except.error.inj (hr.symm.trans hr')
  · obtain ⟨text, ht⟩ := hr' hp
    rw [hr] at ht
    cases ht
  · obtain ⟨text, ht⟩ := hr hp'
    rw [hr'] at ht
    cases ht
  · exact Except.error.inj ((hw []).symm.trans (hw' []))

theorem failsWith_of_unreadable (h : s.isUnreadable p = true) : s.FailsWith p .unreadable :=
  Or.inl ⟨present_of_unreadable h, read_of_unreadable h⟩

theorem failsWith_of_readOnly (h : s.isUnreadable p = false) (hro : s.readOnly = true) :
    s.FailsWith p .readOnly := by
  refine Or.inr ⟨fun hp => ?_, write_of_readOnly hro p⟩
  rw [present_eq_of_readable h, Option.isSome_iff_exists] at hp
  obtain ⟨text, ht⟩ := hp
  exact ⟨text, read_of_readable h ht⟩

theorem Accessible.not_failsWith (h : s.Accessible p) (e : FileError) : ¬ s.FailsWith p e := by
  rintro (⟨hp, hr⟩ | ⟨-, hw⟩)
  · rw [present_eq_of_readable h.readable, Option.isSome_iff_exists] at hp
    obtain ⟨text, ht⟩ := hp
    rw [read_of_readable h.readable ht] at hr
    cases hr
  · have hw := hw []
    rw [h.write_eq] at hw
    cases hw

/-! ### What a call gives -/

theorem attempt_of_unreadable (h : s.isUnreadable c.path = true) : s.attempt c = (.error .unreadable, s) := by
  have hp : (FileStore.present (m := StateM Memory) c.path).run s = (true, s) := by
    rw [run_present, present_of_unreadable h]
  have hr : effect (FileStore.readText (m := StateM Memory) c.path) s = (.error .unreadable, s) := by
    rw [effect_readText, read_of_unreadable h]
  rw [attempt, effect_writeEditor_present hp, effect_bind_error hr]

theorem attempt_of_readOnly (h : s.isUnreadable c.path = false) (hro : s.readOnly = true) :
    s.attempt c = (.error .readOnly, s) := by
  have hw : ∀ text, effect (FileStore.writeText (m := StateM Memory) c.path text) s =
      (.error .readOnly, s) := fun text => by
    rw [effect_writeText, write_of_readOnly hro]
  rw [attempt]
  cases he : s.file? c.path with
  | none =>
    have hp : (FileStore.present (m := StateM Memory) c.path).run s = (false, s) := by
      rw [run_present, present_eq_of_readable h, he]
      rfl
    rw [effect_writeEditor_absent hp, effect_bind_error (hw _)]
  | some e =>
    have hp : (FileStore.present (m := StateM Memory) c.path).run s = (true, s) := by
      rw [run_present, present_eq_of_readable h, he]
      rfl
    have hr : effect (FileStore.readText (m := StateM Memory) c.path) s = (.ok e, s) := by
      rw [effect_readText, read_of_readable h he]
    rw [effect_writeEditor_present hp, effect_bind_ok hr, effect_bind_error (hw _)]

theorem attempt_of_absent (h : s.Accessible c.path) (hnone : s.file? c.path = none) :
    s.attempt c = (.ok .created, s.put c.path c.generated) :=
  h.effect_writeEditor_new hnone c.generated c.guardSymbol

theorem attempt_of_file (h : s.Accessible c.path) {e : Text} (he : s.file? c.path = some e) :
    s.attempt c = (.ok (.appended (Merge.merge e c.generated c.guardSymbol).inserted),
      s.put c.path (Merge.merge e c.generated c.guardSymbol).text) :=
  h.effect_writeEditor_old he c.generated c.guardSymbol

/-- **The four ends of a call.** -/
theorem attempt_cases (s : Memory) (c : WriteCall) :
    (s.isUnreadable c.path = true ∧ s.attempt c = (.error .unreadable, s)) ∨
    (s.isUnreadable c.path = false ∧ s.readOnly = true ∧ s.attempt c = (.error .readOnly, s)) ∨
    (s.Accessible c.path ∧ s.file? c.path = none ∧
      s.attempt c = (.ok .created, s.put c.path c.generated)) ∨
    (s.Accessible c.path ∧ ∃ e, s.file? c.path = some e ∧
      s.attempt c = (.ok (.appended (Merge.merge e c.generated c.guardSymbol).inserted),
        s.put c.path (Merge.merge e c.generated c.guardSymbol).text)) := by
  cases hr : s.isUnreadable c.path with
  | true => exact Or.inl ⟨rfl, attempt_of_unreadable hr⟩
  | false =>
    right
    cases hro : s.readOnly with
    | true => exact Or.inl ⟨rfl, rfl, attempt_of_readOnly hr hro⟩
    | false =>
      right
      cases he : s.file? c.path with
      | none => exact Or.inl ⟨⟨hr, hro⟩, rfl, attempt_of_absent ⟨hr, hro⟩ he⟩
      | some e => exact Or.inr ⟨⟨hr, hro⟩, e, rfl, attempt_of_file ⟨hr, hro⟩ he⟩

/-! ### How a call ends -/

theorem settles_error {e : FileError} (he : s.FailsWith c.path e) : Settles s c (.error e) s where
  error_iff e' := ⟨fun h => Except.error.inj h ▸ he, fun he' => congrArg _ (he.unique he')⟩
  unchanged _ _ := rfl
  created_iff := by simp
  created h := by cases h
  appended_iff := by simp
  appended _ _ h := by cases h
  others _ _ := rfl
  unreadable := rfl
  readOnly := rfl

theorem settles_created (h : s.Accessible c.path) (hnone : s.file? c.path = none) :
    Settles s c (.ok .created) (s.put c.path c.generated) where
  error_iff e := ⟨nofun, fun he => absurd he (h.not_failsWith e)⟩
  unchanged _ he := by cases he
  created_iff := by simp [present_eq_of_readable h.readable, hnone]
  created _ := file?_put s c.path c.generated
  appended_iff := by simp [hnone]
  appended _ _ h := by cases h
  others _ hp := file?_put_of_ne hp s c.generated
  unreadable := rfl
  readOnly := rfl

theorem settles_appended (h : s.Accessible c.path) {e : Text} (he : s.file? c.path = some e) :
    Settles s c (.ok (.appended (Merge.merge e c.generated c.guardSymbol).inserted))
      (s.put c.path (Merge.merge e c.generated c.guardSymbol).text) where
  error_iff e := ⟨nofun, fun he => absurd he (h.not_failsWith e)⟩
  unchanged _ he := by cases he
  created_iff := by simp [present_eq_of_readable h.readable, he]
  created h := by cases h
  appended_iff := by simp [he]
  appended _ e' _ he' := by
    obtain rfl : e = e' := Option.some.inj (he.symm.trans he')
    exact file?_put s c.path _
  others _ hp := file?_put_of_ne hp s _
  unreadable := rfl
  readOnly := rfl

/-- **Every call ends so.** -/
theorem settles_attempt (s : Memory) (c : WriteCall) : Settles s c (s.attempt c).1 (s.attempt c).2 := by
  rcases attempt_cases s c with ⟨hr, h⟩ | ⟨hr, hro, h⟩ | ⟨hacc, hnone, h⟩ | ⟨hacc, e, he, h⟩
  · rw [h]
    exact settles_error (failsWith_of_unreadable hr)
  · rw [h]
    exact settles_error (failsWith_of_readOnly hr hro)
  · rw [h]
    exact settles_created hacc hnone
  · rw [h]
    exact settles_appended hacc he

/-! ### Memories that agree at a path -/

/-- **Two memories agree at a path**: they have the same file there, and allow the same. -/
structure AgreeAt (p : Text) (s t : Memory) : Prop where
  content : s.file? p = t.file? p
  unreadable : s.unreadable = t.unreadable
  readOnly : s.readOnly = t.readOnly

/-- Files are found under every spelling of their paths. -/
theorem file?_of_same (h : Path.Same p q) (s : Memory) : s.file? p = s.file? q := by
  rw [file?, show Path.key p = Path.key q from h, file?]

theorem AgreeAt.of_same (h : AgreeAt p s t) (hq : Path.Same q p) : AgreeAt q s t where
  content := by rw [file?_of_same hq, h.content, file?_of_same hq]
  unreadable := h.unreadable
  readOnly := h.readOnly

theorem AgreeAt.isUnreadable_eq (h : AgreeAt p s t) (q : Text) : s.isUnreadable q = t.isUnreadable q := by
  rw [isUnreadable, h.unreadable, isUnreadable]

/-- A call on another path is not seen. -/
theorem AgreeAt.attempt_of_ne (h : AgreeAt p s t) (hne : ¬ Path.Same c.path p) : AgreeAt p (s.attempt c).2 t := by
  have hs := settles_attempt s c
  exact ⟨(hs.others p fun hp => hne hp.symm).trans h.content, hs.unreadable.trans h.unreadable,
    hs.readOnly.trans h.readOnly⟩

theorem AgreeAt.put (h : AgreeAt p s t) (text : Text) : AgreeAt p (s.put p text) (t.put p text) :=
  ⟨(file?_put s p text).trans (file?_put t p text).symm, h.unreadable, h.readOnly⟩

/-- A call on the path gives the same in both memories, which agree there afterwards. -/
theorem AgreeAt.attempt (h : AgreeAt c.path s t) :
    (s.attempt c).1 = (t.attempt c).1 ∧ AgreeAt c.path (s.attempt c).2 (t.attempt c).2 := by
  have hr' := h.isUnreadable_eq c.path
  rcases attempt_cases s c with ⟨hr, hs⟩ | ⟨hr, hro, hs⟩ | ⟨⟨hr, hro⟩, hnone, hs⟩ | ⟨⟨hr, hro⟩, e, he, hs⟩
  · rw [hs, attempt_of_unreadable (hr' ▸ hr)]
    exact ⟨rfl, h⟩
  · rw [hs, attempt_of_readOnly (hr' ▸ hr) (h.readOnly ▸ hro)]
    exact ⟨rfl, h⟩
  · rw [hs, attempt_of_absent ⟨hr' ▸ hr, h.readOnly ▸ hro⟩ (h.content ▸ hnone)]
    exact ⟨rfl, h.put _⟩
  · rw [hs, attempt_of_file ⟨hr' ▸ hr, h.readOnly ▸ hro⟩ (h.content ▸ he)]
    exact ⟨rfl, h.put _⟩

/-! ### Runs -/

/-- What each of the calls gives, made one after the other. -/
def results (s : Memory) (calls : List WriteCall) : List (Except FileError WriteOutcome) :=
  ((writeAll (m := StateM Memory) calls).run s).1

/-- The memory after calls made one after the other. -/
def after (s : Memory) (calls : List WriteCall) : Memory := ((writeAll (m := StateM Memory) calls).run s).2

@[simp] theorem results_nil (s : Memory) : s.results [] = [] := rfl

@[simp] theorem after_nil (s : Memory) : s.after [] = s := rfl

theorem results_cons (s : Memory) (c : WriteCall) (cs : List WriteCall) :
    s.results (c :: cs) = (s.attempt c).1 :: (s.attempt c).2.results cs := rfl

theorem after_cons (s : Memory) (c : WriteCall) (cs : List WriteCall) :
    s.after (c :: cs) = (s.attempt c).2.after cs := rfl

theorem length_results (s : Memory) (calls : List WriteCall) : (s.results calls).length = calls.length := by
  induction calls generalizing s with
  | nil => rfl
  | cons c cs ih => rw [results_cons, List.length_cons, ih, List.length_cons]

theorem results_append (s : Memory) (cs ds : List WriteCall) :
    s.results (cs ++ ds) = s.results cs ++ (s.after cs).results ds := by
  induction cs generalizing s with
  | nil => rfl
  | cons c cs ih => rw [List.cons_append, results_cons, ih, results_cons, after_cons, List.cons_append]

theorem after_append (s : Memory) (cs ds : List WriteCall) : s.after (cs ++ ds) = (s.after cs).after ds := by
  induction cs generalizing s with
  | nil => rfl
  | cons c cs ih => rw [List.cons_append, after_cons, ih, after_cons]

/-- Of what calls gave, what the calls on a path gave. -/
def resultsAt (p : Text) (calls : List WriteCall) (results : List (Except FileError WriteOutcome)) :
    List (Except FileError WriteOutcome) :=
  ((calls.zip results).filter fun x => Path.Same x.1.path p).map (·.2)

/-- **Calls on other paths may be left out** of a run, as far as one path is concerned. -/
theorem AgreeAt.writeAll (h : AgreeAt p s t) (calls : List WriteCall) :
    resultsAt p calls (s.results calls) = t.results (calls.filter fun c => Path.Same c.path p) ∧
      AgreeAt p (s.after calls) (t.after (calls.filter fun c => Path.Same c.path p)) := by
  induction calls generalizing s t with
  | nil => exact ⟨rfl, h⟩
  | cons c cs ih =>
    by_cases hc : Path.Same c.path p
    · obtain ⟨hresult, hafter⟩ := (h.of_same hc).attempt
      obtain ⟨hresults, hend⟩ := ih (hafter.of_same hc.symm)
      rw [List.filter_cons_of_pos (by simpa using hc), results_cons, results_cons, after_cons, after_cons, ← hresults,
        ← hresult]
      refine ⟨?_, hend⟩
      simp [resultsAt, hc]
    · obtain ⟨hresults, hend⟩ := ih (h.attempt_of_ne hc)
      rw [List.filter_cons_of_neg (by simpa using hc), results_cons, after_cons, ← hresults]
      refine ⟨?_, hend⟩
      simp [resultsAt, hc]

/-- **Every call of a run is settled on its own.** It ends as a call must that finds the memory which the
calls before it left. For every path, what the calls on it give and what is there in the end is the same as
if these calls alone had been made, in their order. Paths that are spelled differently may be the same. -/
theorem writeAll_settles_each_path (s : Memory) (calls : List WriteCall) :
    (s.results calls).length = calls.length ∧
    (∀ cs c ds, calls = cs ++ c :: ds → ∃ result, (s.results calls)[cs.length]? = some result ∧
      Settles (s.after cs) c result (s.after (cs ++ [c]))) ∧
    ∀ p, resultsAt p calls (s.results calls) = s.results (calls.filter fun c => Path.Same c.path p) ∧
      (s.after calls).file? p = (s.after (calls.filter fun c => Path.Same c.path p)).file? p := by
  refine ⟨length_results s calls, ?_, fun p => ?_⟩
  · rintro cs c ds rfl
    refine ⟨((s.after cs).attempt c).1, ?_, ?_⟩
    · rw [results_append, List.getElem?_append_right (length_results s cs).le, length_results, Nat.sub_self]
      rfl
    · rw [after_append, after_cons, after_nil]
      exact settles_attempt (s.after cs) c
  · obtain ⟨hresults, hend⟩ := AgreeAt.writeAll ⟨rfl, rfl, rfl⟩ calls (p := p) (s := s) (t := s)
    exact ⟨hresults, hend.content⟩

-- the second call finds the file that the first one made
example : ({ files := [] } : Memory).results
    [⟨"Assets/A.cs".toList, "class A".toList, []⟩, ⟨"Assets//./A.cs/".toList, "class A".toList, []⟩] =
      [.ok .created, .ok (.appended false)] := rfl

end Memory

end EditorScaffold
