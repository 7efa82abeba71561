import EditorScaffold.Session
import Mathlib.Data.List.Induction

/-! # Histories of sessions

A history is what a user does to a session, one action after the other. Only choosing a script and clearing the
session make a choice, and this replaces the script, the type, the fields and all checks; every other action keeps
what the session holds (`Holds.act`). So a session holds the script chosen last, unless it was cleared since
(`holds_after`), and says of the typed reference what was said last (`target_after`). `after_reflects` collects
what a session tells of its history. -/

namespace EditorScaffold.Session

/-- What a user does to a session. -/
inductive Action where
  | setScript (source : TypeSource) (script : Text)
  | clear
  | setChecked (i : Nat) (checked : Bool)
  | toggle (i : Nat)
  | setCheckedByName (name : Text) (checked : Bool)
  | selectAll (checked : Bool)
  | setTarget (target : Bool)

/-- The session after an action. -/
def act (s : Session) : Action → Session
  | .setScript source script => s.setScript source script
  | .clear => s.clear
  | .setChecked i checked => s.setChecked i checked
  | .toggle i => s.toggle i
  | .setCheckedByName name checked => s.setCheckedByName name checked
  | .selectAll checked => s.selectAll checked
  | .setTarget target => s.setTarget target

/-- The session after a history. -/
def after (s : Session) (as : List Action) : Session := as.foldl act s

namespace Action

/-- The choice that an action makes: a script, with the source that finds its type, or nothing when the session is
cleared. Other actions make no choice. -/
def choice? : Action → Option (Option (TypeSource × Text))
  | setScript source script => some (some (source, script))
  | clear => some none
  | _ => none

/-- What an action says of the typed reference, if anything. -/
def target? : Action → Option Bool
  | setTarget target => some target
  | _ => none

end Action

/-- The script that a history chose last, if it has not cleared the session since. -/
def chosen (as : List Action) : Option (TypeSource × Text) := (as.filterMap Action.choice?).getLast?.join

/-- What a history said last of the typed reference. -/
def lastTarget (as : List Action) : Option Bool := (as.filterMap Action.target?).getLast?

variable {s : Session} {c : Option (TypeSource × Text)} {i : Nat} {name : Text}

theorem after_append (s : Session) (as bs : List Action) : s.after (as ++ bs) = (s.after as).after bs :=
  List.foldl_append

theorem after_concat (s : Session) (as : List Action) (a : Action) : s.after (as ++ [a]) = (s.after as).act a :=
  after_append s as [a]

theorem chosen_concat (as : List Action) (a : Action) : chosen (as ++ [a]) = a.choice?.getD (chosen as) := by
  unfold chosen
  rw [List.filterMap_append]
  cases h : a.choice? <;> simp [h]

theorem lastTarget_concat (as : List Action) (a : Action) :
    lastTarget (as ++ [a]) = a.target?.or (lastTarget as) := by
  unfold lastTarget
  rw [List.filterMap_append]
  cases h : a.target? <;> simp [h]

/-! ### What a session holds -/

/-- **A session holds a choice**: its script, the type that this stands for, and the fields of the type, with a
check for each. -/
structure Holds (s : Session) (c : Option (TypeSource × Text)) : Prop where
  script : s.script = c.map (·.2)
  type : s.type = c.bind fun c => c.1.resolve c.2
  fields : s.fields = (c.map fun c => c.1.profilesOf c.2).getD []
  length_checks : s.checks.length = s.fields.length

theorem holds_new : Holds {} none := ⟨rfl, rfl, rfl, rfl⟩

theorem Holds.act (h : s.Holds c) (a : Action) : (s.act a).Holds (a.choice?.getD c) := by
  cases a with
  | setScript source script => exact ⟨rfl, rfl, rfl, List.length_replicate⟩
  | clear => exact ⟨rfl, rfl, rfl, rfl⟩
  | setChecked i checked => exact { h with length_checks := List.length_set.trans h.length_checks }
  | toggle i => exact { h with length_checks := (List.length_modify ..).trans h.length_checks }
  | setCheckedByName name checked =>
    refine { h with length_checks := ?_ }
    show (List.zipWith _ s.fields s.checks).length = s.fields.length
    rw [List.length_zipWith, h.length_checks, Nat.min_self]
  | selectAll checked => exact { h with length_checks := (List.length_map _).trans h.length_checks }
  | setTarget target => exact { h with }

/-- **After a history, a session holds the script chosen last**, if it has not been cleared since. -/
theorem holds_after (as : List Action) : (({} : Session).after as).Holds (chosen as) := by
  induction as using List.reverseRecOn with
  | nil => exact holds_new
  | append_singleton as a ih =>
    rw [after_concat, chosen_concat]
    exact ih.act a

theorem Holds.type_eq_none (h : s.Holds c) (hs : s.script = none) : s.type = none := by
  rw [h.script, Option.map_eq_none_iff] at hs
  rw [h.type, hs]
  rfl

theorem Holds.fields_eq_nil (h : s.Holds c) (hs : s.type = none) : s.fields = [] := by
  rw [h.fields]
  cases c with
  | none => rfl
  | some c =>
    have hresolve : c.1.resolve c.2 = none := h.type.symm.trans hs
    show c.1.profilesOf c.2 = []
    rw [TypeSource.profilesOf, hresolve]

theorem Holds.checks_eq_nil (h : s.Holds c) (hs : s.type = none) : s.checks = [] := by
  rw [← List.length_eq_zero_iff, h.length_checks, h.fields_eq_nil hs]
  rfl

theorem target_act (s : Session) (a : Action) : (s.act a).target = a.target?.getD s.target := by
  cases a <;> rfl

theorem target_after (s : Session) (as : List Action) : (s.after as).target = (lastTarget as).getD s.target := by
  induction as using List.reverseRecOn with
  | nil => rfl
  | append_singleton as a ih =>
    rw [after_concat, target_act, ih, lastTarget_concat]
    cases a.target? <;> rfl

/-! ### Checked fields -/

theorem isChecked_eq_false (h : s.checks.length ≤ i) : s.isChecked i = false := by
  rw [isChecked, List.getElem?_eq_none h]
  rfl

theorem map_filter_zip {α : Type} (xs : List α) (cs : List Bool) (h : cs.length = xs.length) :
    ((xs.zip cs).filter (·.2)).map (·.1) =
      ((List.range xs.length).filter fun i => cs[i]?.getD false).filterMap (xs[·]?) := by
  induction xs generalizing cs with
  | nil => rfl
  | cons x xs ih =>
    obtain ⟨c, cs, rfl⟩ := List.exists_cons_of_length_eq_add_one h
    have hrest := ih cs (Nat.succ.inj h)
    rw [List.length_cons, List.range_succ_eq_map, List.zip_cons_cons]
    cases c <;>
      simpa [List.filter_cons, List.filter_map, List.filterMap_map, Function.comp_def] using hrest

theorem Holds.selected_eq (h : s.Holds c) :
    s.selected = ((List.range s.fields.length).filter s.isChecked).filterMap (s.fields[·]?) :=
  map_filter_zip s.fields s.checks h.length_checks

/-! ### Actions without effect -/

theorem setChecked_of_length_le (h : s.checks.length ≤ i) (checked : Bool) : s.setChecked i checked = s := by
  rw [setChecked, List.set_eq_of_length_le h]

theorem toggle_of_length_le (h : s.checks.length ≤ i) : s.toggle i = s := by
  rw [toggle, List.modify_eq_self h]

theorem Holds.setCheckedByName_of_hasField (h : s.Holds c) (hname : s.hasField name = false) (checked : Bool) :
    s.setCheckedByName name checked = s := by
  have hne : ∀ f ∈ s.fields, f.name ≠ name := by simpa [hasField] using hname
  have hchecks : s.fields.zipWith (fun f c => if f.name = name then checked else c) s.checks = s.checks := by
    refine List.ext_getElem (by rw [List.length_zipWith, h.length_checks, Nat.min_self]) fun i hi _ => ?_
    rw [List.getElem_zipWith, if_neg (hne _ (List.getElem_mem _))]
  rw [setCheckedByName, hchecks]

/-! ### What a session tells of its history -/

/-- **What a session tells of its history.** -/
structure Reflects (s : Session) (as : List Action) : Prop where
  /-- There is a check for each field. -/
  length_checks : s.checks.length = s.fields.length
  /-- Without a type there is nothing to select. -/
  untyped : s.type = none → s.fields = [] ∧ s.checks = []
  /-- Without a script there is no type. -/
  unscripted : s.script = none → s.type = none
  /-- The fields are those of the script chosen last, if the session has not been cleared since. -/
  fields : s.fields = ((chosen as).map fun c => c.1.profilesOf c.2).getD []
  /-- The selected fields are those whose index is checked, in their order. -/
  selected : s.selected = ((List.range s.fields.length).filter s.isChecked).filterMap (s.fields[·]?)
  /-- No index is checked that has no field. -/
  lt_of_isChecked : ∀ i, s.isChecked i = true → i < s.fields.length
  /-- The typed reference is as it was asked for last. -/
  target : s.target = (lastTarget as).getD false
  /-- An editor can be asked for exactly if there is a type. -/
  isSome_request : s.request?.isSome = s.type.isSome
  /-- It is for this type, the selected fields, and the typed reference or none. -/
  request : ∀ r, s.request? = some r → s.type = some r.type ∧ r.fields = s.selected ∧ r.target = s.target
  /-- Where no field is, nothing is checked or unchecked. -/
  setChecked : ∀ i checked, s.fields.length ≤ i → s.setChecked i checked = s
  toggle : ∀ i, s.fields.length ≤ i → s.toggle i = s
  /-- Nor is it for a name that no field has, and this is told. -/
  setCheckedByName : ∀ name checked, (∀ f ∈ s.fields, f.name ≠ name) →
    s.setCheckedByName name checked = s ∧ s.hasField name = false

/-- **Whatever was done to a session**, it shows the script chosen last with a check for each of its fields, and it
gives the checked ones to the editor. -/
theorem after_reflects (as : List Action) : Reflects (({} : Session).after as) as := by
  have htarget : (({} : Session).after as).target = (lastTarget as).getD false := target_after {} as
  have hholds : (({} : Session).after as).Holds (chosen as) := holds_after as
  generalize ({} : Session).after as = s at htarget hholds
  have hlength : ∀ i, s.fields.length ≤ i → s.checks.length ≤ i := fun i hi => by rwa [hholds.length_checks]
  exact {
    length_checks := hholds.length_checks
    untyped := fun h => ⟨hholds.fields_eq_nil h, hholds.checks_eq_nil h⟩
    unscripted := hholds.type_eq_none
    fields := hholds.fields
    selected := hholds.selected_eq
    lt_of_isChecked := fun i hi => by
      by_contra hle
      rw [isChecked_eq_false (hlength i (Nat.le_of_not_lt hle))] at hi
      exact Bool.false_ne_true hi
    target := htarget
    isSome_request := Option.isSome_map
    request := fun r hr => by
      obtain ⟨type, htype, rfl⟩ := Option.map_eq_some_iff.1 hr
      exact ⟨htype, rfl, rfl⟩
    setChecked := fun i checked hi => setChecked_of_length_le (hlength i hi) checked
    toggle := fun i hi => toggle_of_length_le (hlength i hi)
    setCheckedByName := fun name checked hname => by
      have hfield : s.hasField name = false := by simpa [hasField] using hname
      exact ⟨hholds.setCheckedByName_of_hasField hfield checked, hfield⟩ }

end EditorScaffold.Session
