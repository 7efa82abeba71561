import EditorScaffold.Proofs.Session.History
import EditorScaffold.Proofs.Store.Effect

/-! # What a session forgets

Choosing a script and clearing the session leave nothing of what was before but the typed reference
(`act_eq_of_target_eq`), so of the actions before a choice only the last one counts that said something of it
(`after_forgets`). Two users who agree on the typed reference and then choose the same script cannot be told apart,
whatever they did before. -/

namespace EditorScaffold.Session

variable {s t : Session} {a : Action}

/-- **A choice forgets** all but the typed reference. -/
theorem act_eq_of_target_eq (ha : a.choice?.isSome) (h : s.target = t.target) : s.act a = t.act a := by
  cases a with
  | setScript source script =>
    show s.setScript source script = t.setScript source script
    unfold setScript
    rw [h]
  | clear =>
    show s.clear = t.clear
    unfold clear
    rw [h]
  | setChecked | toggle | setCheckedByName | selectAll | setTarget => cases ha

theorem after_eq_of_target_eq (ha : a.choice?.isSome) (h : s.target = t.target) (later : List Action) :
    s.after (a :: later) = t.after (a :: later) :=
  congrArg (·.after later) (act_eq_of_target_eq ha h)

/-- The last action of a history that said something of the typed reference, alone. -/
def lastTargetAction (as : List Action) : List Action := (as.filter (·.target?.isSome)).getLast?.toList

theorem lastTarget_lastTargetAction (as : List Action) : lastTarget (lastTargetAction as) = lastTarget as := by
  induction as using List.reverseRecOn with
  | nil => rfl
  | append_singleton as a ih =>
    rw [lastTarget_concat]
    unfold lastTargetAction at ih ⊢
    rw [List.filter_append]
    cases h : a.target? with
    | none => simpa [h] using ih
    | some target => simp [h, lastTarget]

/-- What two sessions show of themselves is the same: their checks, what an editor is made from, its text in every
style, and what is written, to whatever files. -/
structure Alike (s t : Session) : Prop where
  checks : s.checks = t.checks
  request : s.request? = t.request?
  text : ∀ style : Style, s.request?.map (·.text style) = t.request?.map (·.text style)
  create : ∀ (σ : Type) [FileStore (StateM σ)] (style : Style) (path : Option Text) (files : σ),
    effect (s.create (m := StateM σ) style path) files = effect (t.create (m := StateM σ) style path) files

theorem Alike.refl (s : Session) : Alike s s where
  checks := rfl
  request := rfl
  text _ := rfl
  create _ _ _ _ _ := rfl

/-- **Nothing leaks through a choice.** Of what was done before a script was chosen or the session was cleared, in
particular for the last time, only the last action counts that said something of the typed reference: without all
others the session is the same. So two users who have done different things, agree on the typed reference, and go on
with the same script of the same source and the same actions see and write the same. -/
theorem after_forgets :
    (∀ (before : List Action) (a : Action) (later : List Action), a.choice?.isSome →
      ({} : Session).after (before ++ a :: later) = ({} : Session).after (lastTargetAction before ++ a :: later)) ∧
    ∀ (as bs : List Action) (source : TypeSource) (script : Text) (later : List Action),
      (({} : Session).after as).target = (({} : Session).after bs).target →
      Alike (({} : Session).after (as ++ .setScript source script :: later))
        (({} : Session).after (bs ++ .setScript source script :: later)) := by
  constructor
  · intro before a later ha
    have htarget : (({} : Session).after before).target = (({} : Session).after (lastTargetAction before)).target := by
      rw [target_after, target_after, lastTarget_lastTargetAction]
    rw [after_append, after_append, after_eq_of_target_eq ha htarget]
  · intro as bs source script later htarget
    rw [after_append, after_append, after_eq_of_target_eq rfl htarget]
    exact Alike.refl _

/-- A source where each script stands for the type of its name, and everything can be open. -/
def namesakes : TypeSource where
  resolve handle := if handle.isEmpty then none else some ⟨handle, []⟩
  fields _ := [{ name := "isOpen".toList, type := .leaf .value "bool".toList }]

/-- A gate is chosen and unchecked. -/
def gateFirst : List Action := [.setScript namesakes "Gate".toList, .setTarget true, .toggle 0]

/-- The session is cleared. -/
def clearFirst : List Action := [.setTarget false, .clear, .setTarget true]

/-- A gate that was unchecked leaves a door checked, with the typed reference that was asked for. -/
theorem door_after_gate :
    (Action.setScript namesakes "Door".toList).choice?.isSome ∧
      (({} : Session).after gateFirst).target = (({} : Session).after clearFirst).target ∧
      ({} : Session).after (gateFirst ++ [.setScript namesakes "Door".toList]) =
        ({} : Session).after [.setTarget true, .setScript namesakes "Door".toList] ∧
      Alike (({} : Session).after (gateFirst ++ [.setScript namesakes "Door".toList, .toggle 0]))
        (({} : Session).after (clearFirst ++ [.setScript namesakes "Door".toList, .toggle 0])) := by
  have hdoor : (Action.setScript namesakes "Door".toList).choice?.isSome := rfl
  have htarget : (({} : Session).after gateFirst).target = (({} : Session).after clearFirst).target := rfl
  exact ⟨hdoor, htarget, after_forgets.1 gateFirst _ [] hdoor, after_forgets.2 gateFirst clearFirst _ _ _ htarget⟩

end EditorScaffold.Session
