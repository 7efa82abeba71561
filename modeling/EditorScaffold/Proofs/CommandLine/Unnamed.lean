import EditorScaffold.Proofs.CommandLine.Effect
import EditorScaffold.Proofs.Tree.Overwrite

/-! # Types without names

A manifest may list a type whose name is empty, but no editor can be made for such a type. A session that has chosen
one and is asked for its editor fails with this error, whatever else was done to it (`no_editor_iff_unnamed`), and so
does the command that makes an editor (`stops_cases`). Both change no file then. The command stops in the same way if
its editor or its unit of indentation is longer than a text can be. Memory for all shorter texts is taken for granted
here, and for those of a session, whose style is any. -/

namespace EditorScaffold

namespace Catalogue

variable {c : Catalogue} {handle : Text}

/-- **A handle is unnamed**: its match compiles, but the type has an empty name. -/
def Unnamed (c : Catalogue) (handle : Text) : Prop :=
  ∃ i e, IsMatch c.entries handle i e ∧ e.compiled = true ∧ e.type.name = []

theorem unnamed_iff : c.Unnamed handle ↔ ∃ t, c.source.resolve handle = some t ∧ t.name = [] := by
  constructor
  · rintro ⟨i, e, hmatch, hcompiled, hname⟩
    exact ⟨e.type, resolve_eq_some_iff.2 ⟨i, e, hmatch, hcompiled, rfl⟩, hname⟩
  · rintro ⟨t, hresolve, hname⟩
    obtain ⟨i, e, hmatch, hcompiled, rfl⟩ := resolve_eq_some_iff.1 hresolve
    exact ⟨i, e, hmatch, hcompiled, hname⟩

end Catalogue

namespace CommandLine

variable {c : Catalogue} {o : GenerateOptions} {s : Session} {style : Style} {r : EditorRequest} {p : Text}
  {σ : Type} [FileStore (StateM σ)]

/-- **The command is stopped**: its options can be met, but a text is too long, or an editor is asked for that is one of
a type without a name. -/
structure Stops (c : Catalogue) (o : GenerateOptions) : Prop where
  meets : Meets c o
  cause : Overlong c o ∨ o.Asks ∧ c.Unnamed o.script

/-! ### Reports of commands that are not stopped -/

theorem exitCode_text_ne (h : r.type.name ≠ []) (style : Style) :
    (reportOf ((r.text style).mapError .editor)).exitCode ≠ 101 := by
  rw [EditorRequest.text_eq_ok h]
  exact Nat.zero_ne_add_one 100

theorem exitCode_said_ne {result : Except CreateError (Option WriteOutcome)} (h : ∀ e, result ≠ .error (.editor e))
    (p : Text) : (reportOf ((result.map (said p)).mapError (notCreated p))).exitCode ≠ 101 := by
  cases result with
  | ok outcome => exact Nat.zero_ne_add_one 100
  | error e =>
    cases e with
    | editor e => exact absurd rfl (h e)
    | file e => exact Nat.ne_of_lt (by decide : 1 < 101)

/-! ### What stops a command -/

/-- **A command is stopped**, says nothing and leaves all files as they are, or it ends in another way. -/
theorem stops_cases (c : Catalogue) (o : GenerateOptions) (files : σ) :
    (Stops c o ∧ ∃ f, effect (generate (m := StateM σ) c o) files = (.error f, files) ∧
      reportOf (.error f) = { exitCode := 101 }) ∨
    ¬ Stops c o ∧ (reportOf (effect (generate (m := StateM σ) c o) files).1).exitCode ≠ 101 := by
  obtain ⟨hmeets, f, hexit, heffect⟩ | ⟨hmeets, hlong, heffect⟩ |
    ⟨hmeets, hlong, e, s, hresolve, htype, hr, hprints, hcreates⟩ := effect_generate_cases c o files
  · refine Or.inr ⟨fun h => hmeets h.meets, fun h => ?_⟩
    rw [heffect, reportOf, hexit] at h
    cases h
  · exact Or.inl ⟨⟨hmeets, Or.inl hlong⟩, _, heffect, rfl⟩
  -- only the name of the type can still stop the command, and only if an editor is asked for
  have hunnamed : c.Unnamed o.script ↔ e.type.name = [] := by simp [Catalogue.unnamed_iff, hresolve]
  cases hout : o.stdout with
  | true =>
    rw [hprints hout]
    by_cases hname : e.type.name = []
    · rw [EditorRequest.text_eq_error hname]
      exact Or.inl ⟨⟨hmeets, Or.inr ⟨Or.inl hout, hunnamed.2 hname⟩⟩, _, rfl, rfl⟩
    · refine Or.inr ⟨fun h => ?_, exitCode_text_ne hname o.meantStyle⟩
      exact hname (hunnamed.1 (h.cause.resolve_left hlong).2)
  | false =>
    rw [hcreates hout _ rfl]
    by_cases hstops : e.type.name = [] ∧ o.output ≠ some []
    · obtain ⟨hname, hne⟩ := hstops
      rw [Session.effect_create_of_error (getD_editorPath_ne_nil hne e) hr
        (EditorRequest.text_eq_error hname o.meantStyle)]
      exact Or.inl ⟨⟨hmeets, Or.inr ⟨Or.inr hne, hunnamed.2 hname⟩⟩, _, rfl, rfl⟩
    · refine Or.inr ⟨fun h => hstops ?_, exitCode_said_ne (fun e' he' => hstops ?_) _⟩
      · obtain ⟨hasks, h⟩ := h.cause.resolve_left hlong
        exact ⟨hunnamed.1 h, hasks.resolve_left (by simp [hout])⟩
      · obtain ⟨-, ⟨p, hp, hne⟩, t, ht, hname⟩ := (Session.create_eq_editor_iff s o.meantStyle _).1 (Prod.ext he' rfl)
        obtain rfl := Option.some.inj (htype.symm.trans ht)
        exact ⟨hname, fun hnil => hne (by rw [← Option.some.inj hp, hnil]; rfl)⟩

/-- **Only types without names have no editors.** A session on a catalogue fails to make one if it is asked to write
the editor of a handle that is unnamed, and only then, whatever was done to it before. A command on a manifest ends in
the same way, or because a text is too long. No file is changed by a failure of this kind. -/
theorem no_editor_iff_unnamed (files : σ) :
    (∀ (c : Catalogue) as style path e files', Session.ChoosesFrom c.source as →
      (effect ((({} : Session).after as).create (m := StateM σ) style path) files = (.error (.editor e), files') ↔
        files' = files ∧ (∃ p, path = some p ∧ p ≠ []) ∧
          ∃ script, Session.chosen as = some (c.source, script) ∧ c.Unnamed script)) ∧
    ∀ schema o,
      (∀ e files', effect (Manifest.load (m := StateM σ) schema) files = (.error e, files') →
        ((report (m := StateM σ) ⟨schema, .generate o⟩).run files).1.exitCode ≠ 101) ∧
      ∀ c files', effect (Manifest.load (m := StateM σ) schema) files = (.ok c, files') →
        (Stops c o → (report (m := StateM σ) ⟨schema, .generate o⟩).run files = ({ exitCode := 101 }, files')) ∧
        (¬ Stops c o → ((report (m := StateM σ) ⟨schema, .generate o⟩).run files).1.exitCode ≠ 101) := by
  refine ⟨fun c as style path e files' h => ?_, fun schema o => ⟨fun e files' h => ?_, fun c files' h => ?_⟩⟩
  · rw [Session.create_eq_editor_iff]
    refine and_congr_right' (and_congr_right' ?_)
    simp only [Catalogue.unnamed_iff, Session.type_after_eq_some_iff h]
    constructor
    · rintro ⟨t, ⟨script, hchosen, hresolve⟩, hname⟩
      exact ⟨script, hchosen, t, hresolve, hname⟩
    · rintro ⟨script, hchosen, t, hresolve, hname⟩
      exact ⟨t, ⟨script, hchosen, hresolve⟩, hname⟩
  · rw [run_report, effect_perform_of_error h]
    exact Nat.ne_of_lt (by decide : 1 < 101)
  · rw [run_report, effect_perform_of_ok h]
    obtain ⟨hstops, f, heffect, hreport⟩ | ⟨hstops, hexit⟩ := stops_cases c o files'
    · exact ⟨fun _ => by rw [heffect, hreport], fun hnot => absurd hstops hnot⟩
    · exact ⟨fun h => absurd h hstops, fun _ => hexit⟩

/-- A catalogue of a type with an empty name. -/
def nameless : Catalogue := ⟨[{ type := ⟨[], []⟩ }], by decide⟩

/-- The manifest that spells it. -/
def namelessText : Text := "\x7b\"types\":[\x7b\"name\":\"\"\x7d]\x7d".toList

/-- The file with the manifest. -/
def namelessFiles : Tree := .single "types.json".toList (.text namelessText)

/-- The type without a name is listed by a manifest, and found by its empty name. -/
theorem nameless_stops :
    Manifest.ofText namelessText = .ok nameless ∧ nameless.Unnamed [] ∧
    effect ((({} : Session).after [.setScript nameless.source []]).create (m := StateM Tree) {}
        (some "x.cs".toList)) namelessFiles = (.error (.editor .unnamedType), namelessFiles) ∧
    (report (m := StateM Tree) ⟨"types.json".toList, .generate { script := [], stdout := true }⟩).run namelessFiles =
      ({ exitCode := 101 }, namelessFiles) := by
  have hunnamed : nameless.Unnamed [] := Catalogue.unnamed_iff.2 ⟨_, rfl, rfl⟩
  obtain ⟨hcreate, hreport⟩ := no_editor_iff_unnamed namelessFiles
  refine ⟨rfl, hunnamed, ?_, ?_⟩
  · refine (hcreate nameless _ _ _ _ _ fun source script h => ?_).2 ⟨rfl, ⟨_, rfl, by decide⟩, [], rfl, hunnamed⟩
    cases List.mem_singleton.1 h
    rfl
  · exact ((hreport _ _).2 nameless _ rfl).1 ⟨⟨⟨_, rfl⟩, by simp⟩, Or.inr ⟨Or.inl rfl, hunnamed⟩⟩

end CommandLine

end EditorScaffold
