import EditorScaffold.CommandLine.Run

/-! # Fields chosen by name

A command checks the fields that its options name, one name after the other, and fails at the first name that no field
has. Checking does not change what fields there are, so the names can be looked up before any field is checked
(`checkFields_eq`, `chooseFields_eq`). The options of a command can be met if the script stands for a type and all
names are those of its fields (`Meets`, `chosen_cases`). -/

namespace EditorScaffold.CommandLine

variable {c : Catalogue} {o : GenerateOptions}

/-! ### Names of fields -/

/-- The session with the fields of the names checked or not, whether there are such fields or not. -/
def checkedAt (checked : Bool) (s : Session) (names : List Text) : Session :=
  names.foldl (·.setCheckedByName · checked) s

/-- The session with only some fields and without others, whether there are such fields or not. -/
def picked (only skip : List Text) (s : Session) : Session :=
  checkedAt false (if only.isEmpty then s else checkedAt true (s.selectAll false) only) skip

theorem fields_checkedAt (checked : Bool) (s : Session) (names : List Text) :
    (checkedAt checked s names).fields = s.fields := by
  induction names generalizing s with
  | nil => rfl
  | cons name names ih => exact ih _

theorem type_checkedAt (checked : Bool) (s : Session) (names : List Text) :
    (checkedAt checked s names).type = s.type := by
  induction names generalizing s with
  | nil => rfl
  | cons name names ih => exact ih _

theorem hasField_checkedAt (checked : Bool) (s : Session) (names : List Text) :
    (checkedAt checked s names).hasField = s.hasField := by
  funext name
  rw [Session.hasField, fields_checkedAt, Session.hasField]

theorem type_picked (only skip : List Text) (s : Session) : (picked only skip s).type = s.type := by
  unfold picked
  rw [type_checkedAt]
  split
  · rfl
  · exact type_checkedAt true _ only

/-! ### The first name that is missing -/

/-- A failure at the first name that no field has, else a session. -/
def unlessMissing (type : Text) (has : Text → Bool) (names : List Text) (done : Session) : Except Failure Session :=
  match names.find? (!has ·) with
  | some name => .error (.unknownField name type)
  | none => .ok done

theorem unlessMissing_append (type : Text) (has : Text → Bool) (names more : List Text) (done later : Session) :
    (unlessMissing type has names done >>= fun _ => unlessMissing type has more later) =
      unlessMissing type has (names ++ more) later := by
  unfold unlessMissing
  rw [List.find?_append]
  cases names.find? (!has ·) <;> rfl

theorem unlessMissing_bind (type : Text) (has : Text → Bool) (names : List Text) (done : Session)
    (f : Session → Except Failure Session) :
    unlessMissing type has names done >>= f = unlessMissing type has names done >>= fun _ => f done := by
  unfold unlessMissing
  cases names.find? (!has ·) <;> rfl

/-- **Fields are checked by name** up to the first name that no field has. -/
theorem checkFields_eq (type : Text) (checked : Bool) (s : Session) (names : List Text) :
    checkFields type checked s names = unlessMissing type s.hasField names (checkedAt checked s names) := by
  induction names generalizing s with
  | nil => rfl
  | cons name names ih =>
    rw [checkFields, unlessMissing, List.find?_cons]
    cases hname : s.hasField name with
    | true =>
      rw [if_pos rfl, ih]
      rfl
    | false => rfl

/-- **Fields are chosen by name** up to the first name that no field has, among the wanted ones and then among the
unwanted ones. -/
theorem chooseFields_eq (type : Text) (only skip : List Text) (s : Session) :
    chooseFields type only skip s = unlessMissing type s.hasField (only ++ skip) (picked only skip s) := by
  unfold chooseFields picked
  cases only with
  | nil => exact checkFields_eq type false s skip
  | cons name only =>
    have hall : (s.selectAll false).hasField = s.hasField := rfl
    simp only [List.isEmpty_cons, Bool.false_eq_true, if_false]
    rw [checkFields_eq, unlessMissing_bind, checkFields_eq, hasField_checkedAt, hall, unlessMissing_append]

/-! ### Options that can be met -/

/-- **The options can be met**: the script stands for a type, and all names are those of fields of the type. -/
structure Meets (c : Catalogue) (o : GenerateOptions) : Prop where
  resolves : ∃ t, c.source.resolve o.script = some t
  named : ∀ name ∈ o.only ++ o.skip, ∃ p ∈ c.source.profilesOf o.script, p.name = name

theorem chosen_of_resolve_eq_none (h : c.source.resolve o.script = none) :
    chosen c o = .error (.unresolved o.script) := by
  simp only [chosen, Session.setScript, h]

/-- What is chosen where the script stands for a type. -/
theorem chosen_of_resolve_eq_some {t : TypeName} (h : c.source.resolve o.script = some t) :
    chosen c o = (·.setTarget o.target) <$> chooseFields t.name o.only o.skip
      (({} : Session).setScript c.source o.script) := by
  simp only [chosen, Session.setScript, h]

theorem hasField_setScript (s : Session) (source : TypeSource) (script name : Text) :
    (s.setScript source script).hasField name = true ↔ ∃ p ∈ source.profilesOf script, p.name = name := by
  have hfields : (s.setScript source script).fields = source.profilesOf script := rfl
  simp [Session.hasField, hfields]

/-- **What the options choose**: a session of the type that the script stands for, if they can be met, and else a
failure of the command. -/
theorem chosen_cases (c : Catalogue) (o : GenerateOptions) :
    (Meets c o ∧ ∃ s, chosen c o = .ok s ∧ s.type = c.source.resolve o.script ∧ s.target = o.target) ∨
    ¬ Meets c o ∧ ∃ f, chosen c o = .error f ∧ f.exitCode = 1 := by
  cases hresolve : c.source.resolve o.script with
  | none =>
    refine Or.inr ⟨fun h => ?_, _, chosen_of_resolve_eq_none hresolve, rfl⟩
    obtain ⟨t, ht⟩ := h.resolves
    rw [hresolve] at ht
    cases ht
  | some t =>
    rw [chosen_of_resolve_eq_some hresolve, chooseFields_eq, unlessMissing]
    cases hfind : (o.only ++ o.skip).find? (!(({} : Session).setScript c.source o.script).hasField ·) with
    | some name =>
      refine Or.inr ⟨fun h => ?_, _, rfl, rfl⟩
      have hmissing := List.find?_some hfind
      rw [(hasField_setScript _ _ _ _).2 (h.named name (List.mem_of_find?_eq_some hfind))] at hmissing
      cases hmissing
    | none =>
      -- no name is missing, neither a wanted nor an unwanted one
      refine Or.inl ⟨⟨⟨t, hresolve⟩, fun name hname => ?_⟩, _, rfl, ?_, rfl⟩
      · exact (hasField_setScript {} _ _ _).1 (by simpa using List.find?_eq_none.1 hfind name hname)
      · exact (type_picked o.only o.skip _).trans hresolve

end EditorScaffold.CommandLine
