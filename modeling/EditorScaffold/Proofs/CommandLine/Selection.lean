import EditorScaffold.Proofs.CommandLine.Choice
import EditorScaffold.Proofs.Session.Creating

/-! # Which fields a command selects

The checks of a session follow a rule: a field is checked or not by what it is, not by where it stands (`ChecksBy`).
Choosing a script checks every field, and each name that is checked or not changes the rule for the fields of that name
alone. So after all names of a command a field is checked exactly if it is wanted and not unwanted (`checksBy_picked`),
and what is selected are the fields with such names, in their order (`chosen_selects_named`). -/

namespace EditorScaffold

namespace Session

variable {s : Session} {rule : Profile → Bool}

/-- **The checks follow a rule**: the check of each field is what the rule says of the field. -/
def ChecksBy (s : Session) (rule : Profile → Bool) : Prop := s.checks = s.fields.map rule

theorem checksBy_setScript (s : Session) (source : TypeSource) (script : Text) :
    (s.setScript source script).ChecksBy fun _ => true :=
  List.map_const'.symm

theorem ChecksBy.selectAll (h : s.ChecksBy rule) (checked : Bool) :
    (s.selectAll checked).ChecksBy fun _ => checked := by
  show s.checks.map (fun _ => checked) = s.fields.map fun _ => checked
  rw [h, List.map_map]
  rfl

theorem ChecksBy.setCheckedByName (h : s.ChecksBy rule) (name : Text) (checked : Bool) :
    (s.setCheckedByName name checked).ChecksBy fun p => if p.name = name then checked else rule p := by
  show s.fields.zipWith (fun p c => if p.name = name then checked else c) s.checks = _
  rw [h, List.zipWith_map_right, List.zipWith_self]
  rfl

/-- What is selected are the fields that the rule checks. -/
theorem ChecksBy.selected_eq (h : s.ChecksBy rule) : s.selected = s.fields.filter rule := by
  unfold selected
  rw [h]
  induction s.fields with
  | nil => rfl
  | cons p ps ih =>
    rw [List.map_cons, List.zip_cons_cons, List.filter_cons, List.filter_cons]
    cases rule p <;> simpa using ih

end Session

namespace CommandLine

variable {c : Catalogue} {o : GenerateOptions} {s : Session} {rule : Profile → Bool} {t : TypeName}

/-! ### The rule that names make -/

theorem checksBy_checkedAt (h : s.ChecksBy rule) (checked : Bool) (names : List Text) :
    (checkedAt checked s names).ChecksBy fun p => if p.name ∈ names then checked else rule p := by
  induction names generalizing s rule with
  | nil => simpa [checkedAt] using h
  | cons name names ih =>
    have hrest : (checkedAt checked (s.setCheckedByName name checked) names).ChecksBy fun p =>
        if p.name ∈ names then checked else if p.name = name then checked else rule p :=
      ih (h.setCheckedByName name checked)
    -- a name that comes again says the same again
    have hrule : (fun p : Profile => if p.name ∈ name :: names then checked else rule p) =
        fun p => if p.name ∈ names then checked else if p.name = name then checked else rule p := by
      funext p
      by_cases hmem : p.name ∈ names <;> by_cases hname : p.name = name <;> simp [hmem, hname]
    rw [hrule]
    exact hrest

/-- The name is wanted, as all are if none is asked for, and is not unwanted. -/
abbrev Wanted (only skip : List Text) (name : Text) : Prop := (only = [] ∨ name ∈ only) ∧ name ∉ skip

/-- **After all names a field is checked if its name is wanted**, and only then. -/
theorem checksBy_picked (h : s.ChecksBy fun _ => true) (only skip : List Text) :
    (picked only skip s).ChecksBy fun p => Wanted only skip p.name := by
  have hrule : ∀ kept : Profile → Bool, (∀ p, kept p = true ↔ only = [] ∨ p.name ∈ only) →
      (fun p : Profile => decide (Wanted only skip p.name)) = fun p => if p.name ∈ skip then false else kept p := by
    intro kept hkept
    funext p
    by_cases hskip : p.name ∈ skip
    · simp [Wanted, hskip]
    · rw [if_neg hskip, Bool.eq_iff_iff, decide_eq_true_iff, hkept]
      exact and_iff_left hskip
  unfold picked
  cases only with
  | nil =>
    rw [hrule (fun _ => true) fun p => by simp]
    exact checksBy_checkedAt h false skip
  | cons name only =>
    rw [hrule (fun p => if p.name ∈ name :: only then true else false) fun p => by simp]
    exact checksBy_checkedAt (checksBy_checkedAt (h.selectAll false) true (name :: only)) false skip

/-! ### What is selected -/

theorem fields_picked (only skip : List Text) (s : Session) : (picked only skip s).fields = s.fields := by
  unfold picked
  rw [fields_checkedAt]
  split
  · rfl
  · exact fields_checkedAt true _ only

/-- The editor that is asked for after all names. -/
theorem request?_picked (h : c.source.resolve o.script = some t) :
    ((picked o.only o.skip (({} : Session).setScript c.source o.script)).setTarget o.target).request? =
      some ⟨t, (c.source.profilesOf o.script).filter fun p => Wanted o.only o.skip p.name, o.target⟩ := by
  have hchecks := checksBy_picked (Session.checksBy_setScript {} c.source o.script) o.only o.skip
  have htype := (type_picked o.only o.skip (({} : Session).setScript c.source o.script)).trans h
  have hfields : (picked o.only o.skip (({} : Session).setScript c.source o.script)).fields =
      c.source.profilesOf o.script := fields_picked o.only o.skip _
  rw [Session.request?_eq (show (Session.setTarget _ o.target).type = some t from htype), ← hfields,
    ← hchecks.selected_eq]
  rfl

/-- The names of a command that no field has. -/
def Missing (c : Catalogue) (o : GenerateOptions) (name : Text) : Prop :=
  ¬ ∃ p ∈ c.source.profilesOf o.script, p.name = name

theorem not_hasField_iff {name : Text} :
    (!(({} : Session).setScript c.source o.script).hasField name) = true ↔ Missing c o name := by
  rw [Missing, ← hasField_setScript, Bool.not_eq_true', Bool.not_eq_true]

/-- **Choosing fails at the first name that is missing**, or else selects the wanted fields. -/
theorem chosen_named_cases (h : c.source.resolve o.script = some t) :
    (∃ before name after, o.only ++ o.skip = before ++ name :: after ∧ (∀ n ∈ before, ¬ Missing c o n) ∧
      Missing c o name ∧ chosen c o = .error (.unknownField name t.name)) ∨
    ((∀ name ∈ o.only ++ o.skip, ¬ Missing c o name) ∧ ∃ s, chosen c o = .ok s ∧ s.request? =
      some ⟨t, (c.source.profilesOf o.script).filter fun p => Wanted o.only o.skip p.name, o.target⟩) := by
  rw [chosen_of_resolve_eq_some h, chooseFields_eq, unlessMissing]
  cases hfind : (o.only ++ o.skip).find? (!(({} : Session).setScript c.source o.script).hasField ·) with
  | some name =>
    obtain ⟨hmissing, before, after, hnames, hbefore⟩ := List.find?_eq_some_iff_append.1 hfind
    refine Or.inl ⟨before, name, after, hnames, fun n hn hno => ?_, not_hasField_iff.1 hmissing, rfl⟩
    have hhas := hbefore n hn
    rw [not_hasField_iff.2 hno] at hhas
    cases hhas
  | none =>
    refine Or.inr ⟨fun name hname hno => ?_, _, rfl, request?_picked h⟩
    exact List.find?_eq_none.1 hfind name hname (not_hasField_iff.2 hno)

theorem wanted_congr {only only' skip skip' : List Text} (honly : ∀ n, n ∈ only' ↔ n ∈ only)
    (hskip : ∀ n, n ∈ skip' ↔ n ∈ skip) (name : Text) : Wanted only' skip' name ↔ Wanted only skip name := by
  have hnil : only' = [] ↔ only = [] := by simp only [List.eq_nil_iff_forall_not_mem, honly]
  rw [Wanted, Wanted, hnil, honly, hskip]

/-- **A command selects the fields that its options name.** Where the script stands for a type, choosing succeeds if and
only if no name is missing, and else fails over the first name that is, among the wanted ones and then among the
unwanted ones. The editor gets the fields whose name is wanted, in the order of their declaration and all those of one
name. So neither the order of the names nor their repetition matters to it. -/
theorem chosen_selects_named (h : c.source.resolve o.script = some t) :
    ((∃ s, chosen c o = .ok s) ↔ ∀ name ∈ o.only ++ o.skip, ∃ p ∈ c.source.profilesOf o.script, p.name = name) ∧
    (∀ f, chosen c o = .error f → ∃ before name after, o.only ++ o.skip = before ++ name :: after ∧
      (∀ n ∈ before, ∃ p ∈ c.source.profilesOf o.script, p.name = n) ∧
      (¬ ∃ p ∈ c.source.profilesOf o.script, p.name = name) ∧ f = .unknownField name t.name) ∧
    (∀ s, chosen c o = .ok s → s.request? = some ⟨t, (c.source.profilesOf o.script).filter fun p =>
      (o.only = [] ∨ p.name ∈ o.only) ∧ p.name ∉ o.skip, o.target⟩) ∧
    (∀ o' : GenerateOptions, o'.script = o.script → o'.target = o.target → (∀ n, n ∈ o'.only ↔ n ∈ o.only) →
      (∀ n, n ∈ o'.skip ↔ n ∈ o.skip) →
      (chosen c o').toOption.bind Session.request? = (chosen c o).toOption.bind Session.request?) := by
  have hnamed : ∀ {name}, ¬ Missing c o name ↔ ∃ p ∈ c.source.profilesOf o.script, p.name = name := not_not
  simp only [← hnamed]
  obtain ⟨before, name, after, hnames, hbefore, hno, hchosen⟩ | ⟨hall, s, hchosen, hrequest⟩ := chosen_named_cases h
  · -- a name is missing, and it is so for all options with the same names
    rw [hchosen]
    have hmem : name ∈ o.only ++ o.skip := by simp [hnames]
    refine ⟨iff_of_false (by rintro ⟨s, ⟨⟩⟩) fun hall => hall name hmem hno, ?_, by rintro s ⟨⟩,
      fun o' hscript _ honly hskip => ?_⟩
    · rintro f ⟨⟩
      exact ⟨before, name, after, hnames, hbefore, not_not.2 hno, rfl⟩
    · obtain ⟨_, _, _, -, -, -, hchosen'⟩ | ⟨hall', -⟩ := chosen_named_cases (o := o') (hscript ▸ h)
      · rw [hchosen']
        rfl
      · have hmem' : name ∈ o'.only ++ o'.skip := by
          rwa [List.mem_append, honly, hskip, ← List.mem_append]
        exact absurd hno (by simpa only [Missing, hscript] using hall' name hmem')
  · rw [hchosen]
    refine ⟨⟨fun _ => hall, fun _ => ⟨s, rfl⟩⟩, by rintro f ⟨⟩, ?_, fun o' hscript htarget honly hskip => ?_⟩
    · rintro s ⟨⟩
      exact hrequest
    · obtain ⟨before, name, after, hnames, -, hno, -⟩ | ⟨-, s', hchosen', hrequest'⟩ :=
        chosen_named_cases (o := o') (hscript ▸ h)
      · have hmem : name ∈ o.only ++ o.skip := by
          rw [List.mem_append, ← honly, ← hskip, ← List.mem_append, hnames]
          simp
        exact absurd (by simpa only [Missing, hscript] using hno) (hall name hmem)
      · rw [hchosen']
        show s'.request? = s.request?
        simp only [hrequest', hrequest, wanted_congr honly hskip, hscript, htarget]

/-- A field of a turret. -/
def turretField (name : Text) : Field := { name, type := .leaf .value "float".toList }

/-- A turret with two fields of one name. -/
def turret : Catalogue :=
  ⟨[{ type := ⟨"Turret".toList, []⟩, fields := ["aim", "mode", "aim", "range"].map (turretField ·.toList) }], by decide⟩

/-- Wanted are the fields of one name and one of another, and the latter is unwanted as well. -/
def aimOnly : GenerateOptions where
  script := "Turret".toList
  only := ["mode", "aim", "aim"].map String.toList
  skip := ["mode".toList]

/-- One of the wanted fields is not there. -/
def aimAndSpeed : GenerateOptions where
  script := "Turret".toList
  only := ["aim", "speed"].map String.toList

/-- Both fields of the wanted name are selected, and the one that is wanted and unwanted is not. Nothing is selected
where a name is missing. -/
theorem turret_selects_aim :
    turret.source.resolve "Turret".toList = some ⟨"Turret".toList, []⟩ ∧
    (∃ s, chosen turret aimOnly = .ok s ∧ s.request? = some
      ⟨⟨"Turret".toList, []⟩, [(turretField "aim".toList).profile, (turretField "aim".toList).profile], false⟩) ∧
    ¬ ∃ s, chosen turret aimAndSpeed = .ok s := by
  have h : turret.source.resolve "Turret".toList = some ⟨"Turret".toList, []⟩ := rfl
  obtain ⟨hok, -, hrequest, -⟩ := chosen_selects_named (o := aimOnly) h
  obtain ⟨hfail, -⟩ := chosen_selects_named (o := aimAndSpeed) h
  obtain ⟨s, hs⟩ := hok.2 (by decide)
  exact ⟨h, ⟨s, hs, (hrequest s hs).trans rfl⟩, mt hfail.1 (by decide)⟩

end CommandLine

end EditorScaffold
