import EditorScaffold.Proofs.Editor.Lines
import EditorScaffold.Proofs.Session.History
import EditorScaffold.Proofs.Store.Effect

/-! # Creating an editor from a session

A session writes the editor that is asked for to a path, if there is one and a type is chosen
(`effect_create_of_text`, `effect_create_of_nothing`). There is no editor for a type without a name, and then nothing
is written (`create_eq_editor_iff`). -/

namespace EditorScaffold.Session

variable {s : Session} {source : TypeSource} {r : EditorRequest} {style : Style} {path : Option Text} {p text : Text}
  {σ : Type} [FileStore (StateM σ)]

/-! ### What is written -/

theorem request?_eq {t : TypeName} (h : s.type = some t) : s.request? = some ⟨t, s.selected, s.target⟩ := by
  rw [request?, h, Option.map_some]

/-- Nothing happens without a path, with an empty one, or without a type. -/
theorem effect_create_of_nothing (h : path.filter (!·.isEmpty) = none ∨ s.type = none) (style : Style) (files : σ) :
    effect (s.create (m := StateM σ) style path) files = (.ok none, files) := by
  unfold create request?
  rcases h with h | h
  · rw [h]
    rfl
  · rw [h]
    cases path.filter (!·.isEmpty) <;> rfl

theorem filter_eq_some_of_ne_nil (hp : p ≠ []) : (some p).filter (!·.isEmpty) = some p := by
  simp [hp]

/-- An editor that cannot be made is not written. -/
theorem effect_create_of_error {e : EditorError} (hp : p ≠ []) (hr : s.request? = some r)
    (htext : r.text style = .error e) (files : σ) :
    effect (s.create (m := StateM σ) style (some p)) files = (.error (.editor e), files) := by
  unfold create
  rw [filter_eq_some_of_ne_nil hp, hr]
  simp only [htext]
  rfl

/-- **The editor that is asked for is written to the path.** -/
theorem effect_create_of_text (hp : p ≠ []) (hr : s.request? = some r) (htext : r.text style = .ok text)
    (files : σ) :
    effect (s.create (m := StateM σ) style (some p)) files =
      (((effect (writeEditor (m := StateM σ) p text style.guardSymbol) files).1.map some).mapError .file,
        (effect (writeEditor (m := StateM σ) p text style.guardSymbol) files).2) := by
  unfold create
  rw [filter_eq_some_of_ne_nil hp, hr]
  simp only [htext]
  rw [effect_bind, effect_adapt]
  rcases effect (writeEditor (m := StateM σ) p text style.guardSymbol) files with ⟨_ | _, t⟩ <;> rfl

/-! ### Types without names -/

/-- **No editor can be made** exactly for a type without a name, and if there is a path to write one to. Nothing is
written then. -/
theorem create_eq_editor_iff (s : Session) (style : Style) (path : Option Text) {files files' : σ} {e : EditorError} :
    effect (s.create (m := StateM σ) style path) files = (.error (.editor e), files') ↔
      files' = files ∧ (∃ p, path = some p ∧ p ≠ []) ∧ ∃ t, s.type = some t ∧ t.name = [] := by
  constructor
  · intro h
    have hpath : path.filter (!·.isEmpty) ≠ none := fun hnone => by
      rw [effect_create_of_nothing (Or.inl hnone)] at h
      cases h
    obtain ⟨p, rfl, hp⟩ : ∃ p, path = some p ∧ p ≠ [] := by
      cases path with
      | none => exact absurd rfl hpath
      | some p => exact ⟨p, rfl, fun hnil => hpath (by rw [hnil]; rfl)⟩
    cases htype : s.type with
    | none =>
      rw [effect_create_of_nothing (Or.inr htype)] at h
      cases h
    | some t =>
      by_cases hname : t.name = []
      · rw [effect_create_of_error hp (request?_eq htype) (EditorRequest.text_eq_error hname style)] at h
        exact ⟨(Prod.ext_iff.1 h).2.symm, ⟨p, rfl, hp⟩, t, rfl, hname⟩
      · rw [effect_create_of_text hp (request?_eq htype) (EditorRequest.text_eq_ok hname style)] at h
        rcases hwritten : (effect (writeEditor (m := StateM σ) p _ style.guardSymbol) files).1 with _ | _ <;>
          rw [hwritten] at h <;> cases h
  · rintro ⟨rfl, ⟨p, rfl, hp⟩, t, htype, hname⟩
    cases e
    exact effect_create_of_error hp (request?_eq htype) (EditorRequest.text_eq_error hname style) _

/-! ### Histories on one source -/

/-- All scripts of a history are chosen from one source. -/
def ChoosesFrom (source : TypeSource) (as : List Action) : Prop :=
  ∀ source' script, Action.setScript source' script ∈ as → source' = source

theorem setScript_mem_of_chosen {as : List Action} {script : Text} (h : chosen as = some (source, script)) :
    Action.setScript source script ∈ as := by
  have hlast : (as.filterMap Action.choice?).getLast? = some (some (source, script)) := by
    simpa [chosen, Option.join_eq_some_iff] using h
  obtain ⟨a, ha, hchoice⟩ := List.mem_filterMap.1 (List.mem_of_getLast? hlast)
  cases a with
  | setScript source' script' =>
    obtain ⟨rfl, rfl⟩ : source' = source ∧ script' = script := by simpa [Action.choice?] using hchoice
    exact ha
  | clear | setChecked | toggle | setCheckedByName | selectAll | setTarget => simp [Action.choice?] at hchoice

/-- **After a history on one source**, a session has the type that the script chosen last stands for there. -/
theorem type_after_eq_some_iff {as : List Action} (h : ChoosesFrom source as) {t : TypeName} :
    (({} : Session).after as).type = some t ↔
      ∃ script, chosen as = some (source, script) ∧ source.resolve script = some t := by
  rw [(holds_after as).type, Option.bind_eq_some_iff]
  constructor
  · rintro ⟨⟨source', script⟩, hchosen, hresolve⟩
    obtain rfl := h source' script (setScript_mem_of_chosen hchosen)
    exact ⟨script, hchosen, hresolve⟩
  · rintro ⟨script, hchosen, hresolve⟩
    exact ⟨(source, script), hchosen, hresolve⟩

end EditorScaffold.Session
