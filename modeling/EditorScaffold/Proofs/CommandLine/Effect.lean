import EditorScaffold.Proofs.Catalogue.Lookup
import EditorScaffold.Proofs.CommandLine.Choice
import EditorScaffold.Proofs.Session.Creating

/-! # What a command does

The command that makes an editor fails before it touches any file if its options cannot be met, or if the editor or its
unit of indentation is longer than a text can be (`Overlong`). Else it prints the text of the editor
(`effect_generate_of_stdout`), or creates the editor from the session (`effect_generate_of_path`);
`effect_generate_cases` collects all of this. What the program reports is read off what the command gives
(`run_report`). -/

namespace EditorScaffold.CommandLine

variable {c : Catalogue} {e : Entry} {o : GenerateOptions} {s : Session} {style : Style} {r : EditorRequest}
  {f : Failure} {p text : Text} {output : Option Text} {σ : Type} [FileStore (StateM σ)]

/-! ### Lengths -/

namespace GenerateOptions

/-- The unit of indentation fits in a text. -/
def Fits (o : GenerateOptions) : Prop := ∀ width, o.indentSpaces = some width → width ≤ Text.maxByteSize

/-- The style that is meant by the options, whether its unit of indentation fits in a text or not. -/
def meantStyle (o : GenerateOptions) : Style :=
  match o.indentSpaces with
  | none => {}
  | some width => { indentUnit := List.replicate width ' ' }

theorem meantStyle_guardSymbol (o : GenerateOptions) : o.meantStyle.guardSymbol = "UNITY_EDITOR".toList := by
  unfold meantStyle
  split <;> rfl

theorem withSpaces?_of_le {width : Nat} (h : width ≤ Text.maxByteSize) (style : Style) :
    style.withSpaces? width = some { style with indentUnit := List.replicate width ' ' } := if_pos h

theorem withSpaces?_of_not_le {width : Nat} (h : ¬ width ≤ Text.maxByteSize) (style : Style) :
    style.withSpaces? width = none := if_neg h

theorem style_of_fits (h : o.Fits) : o.style = .ok o.meantStyle := by
  unfold style meantStyle
  cases hwidth : o.indentSpaces with
  | none => rfl
  | some width =>
    dsimp only
    rw [withSpaces?_of_le (h width hwidth)]

theorem style_of_not_fits (h : ¬ o.Fits) : o.style = .error .tooLong := by
  simp only [Fits, not_forall] at h
  obtain ⟨width, hwidth, hwide⟩ := h
  unfold style
  rw [hwidth]
  dsimp only
  rw [withSpaces?_of_not_le hwide]

theorem byteSize_indentUnit_meantStyle {width : Nat} (h : o.indentSpaces = some width) :
    o.meantStyle.indentUnit.byteSize = width := by
  have hsize : ' '.utf8Size = 1 := rfl
  unfold meantStyle
  rw [h]
  dsimp only
  rw [Text.byteSize_replicate, hsize, Nat.mul_one]

/-- The unit of indentation fits in a text if the editor does: it is three times in a line of it. -/
theorem fits_of_byteSize_text_le (h : (Layout.text o.meantStyle r.layout).byteSize ≤ Text.maxByteSize) : o.Fits := by
  intro width hwidth
  have hthree := (r.three_mul_byteSize_le_text o.meantStyle).trans h
  rw [byteSize_indentUnit_meantStyle hwidth] at hthree
  exact (Nat.le_mul_of_pos_left width (by decide : 0 < 3)).trans hthree

theorem checkLength_eq_ok (hr : s.request? = some r)
    (h : ¬ (o.Asks ∧ Text.maxByteSize < (Layout.text style r.layout).byteSize)) : o.checkLength style s = .ok () := by
  rw [checkLength, hr]
  exact if_neg h

theorem checkLength_eq_error (hr : s.request? = some r) (hasks : o.Asks)
    (hlong : Text.maxByteSize < (Layout.text style r.layout).byteSize) :
    o.checkLength style s = .error .tooLong := by
  rw [checkLength, hr]
  exact if_pos ⟨hasks, hlong⟩

end GenerateOptions

/-- **The editor is too long**: in the style that is meant, it is longer than a text can be. -/
def TooLong (c : Catalogue) (o : GenerateOptions) : Prop :=
  ∃ s r, chosen c o = .ok s ∧ s.request? = some r ∧
    Text.maxByteSize < (Layout.text o.meantStyle r.layout).byteSize

theorem tooLong_iff (h : chosen c o = .ok s) (hr : s.request? = some r) :
    TooLong c o ↔ Text.maxByteSize < (Layout.text o.meantStyle r.layout).byteSize := by
  constructor
  · rintro ⟨s', r', hs', hr', hlong⟩
    cases h.symm.trans hs'
    cases hr.symm.trans hr'
    exact hlong
  · exact fun hlong => ⟨s, r, h, hr, hlong⟩

/-- **A text of the command is too long**: the unit of indentation, or the editor if one is asked for. -/
def Overlong (c : Catalogue) (o : GenerateOptions) : Prop := ¬ o.Fits ∨ o.Asks ∧ TooLong c o

/-! ### Where the editor goes -/

/-- Options that can be met choose a session on the match. -/
theorem Meets.exists_chosen (h : Meets c o) :
    ∃ i e s, Catalogue.IsMatch c.entries o.script i e ∧ c.source.resolve o.script = some e.type ∧
      chosen c o = .ok s ∧ s.type = some e.type ∧ s.request? = some ⟨e.type, s.selected, o.target⟩ := by
  obtain ⟨-, s, hchosen, htype, htarget⟩ | ⟨hmeets, -⟩ := chosen_cases c o
  · obtain ⟨t, ht⟩ := h.resolves
    obtain ⟨i, e, hmatch, -, rfl⟩ := Catalogue.resolve_eq_some_iff.1 ht
    rw [ht] at htype
    exact ⟨i, e, s, hmatch, ht, hchosen, htype, htarget ▸ Session.request?_eq htype⟩
  · exact absurd h hmeets

theorem output_or_defaultPath? (he : e ∈ c.entries) (h : s.type = some e.type) (output : Option Text) :
    output.or (s.defaultPath? c.source) = some (output.getD e.editorPath) := by
  rw [Catalogue.defaultPath?_eq he h]
  cases output <;> rfl

theorem getD_editorPath_ne_nil (h : output ≠ some []) (e : Entry) : output.getD e.editorPath ≠ [] := by
  cases output with
  | none => exact e.editorPath_ne_nil
  | some p => exact fun hnil => h (congrArg some hnil)

/-! ### Steps of the command -/

theorem effect_generate_of_chosen_error (h : chosen c o = .error f) (files : σ) :
    effect (generate (m := StateM σ) c o) files = (.error f, files) := by
  rw [generate, h, effect_mk_error_bind]

theorem effect_generate_of_overlong (h : chosen c o = .ok s) (hr : s.request? = some r) (hlong : Overlong c o)
    (files : σ) : effect (generate (m := StateM σ) c o) files = (.error .tooLong, files) := by
  by_cases hfits : o.Fits
  · obtain ⟨hasks, htext⟩ := hlong.resolve_left (not_not_intro hfits)
    rw [generate, h, effect_mk_ok_bind, GenerateOptions.style_of_fits hfits, effect_mk_ok_bind,
      GenerateOptions.checkLength_eq_error hr hasks ((tooLong_iff h hr).1 htext), effect_mk_error_bind]
  · rw [generate, h, effect_mk_ok_bind, GenerateOptions.style_of_not_fits hfits, effect_mk_error_bind]

/-- What no text is too long for makes an editor in the style that is meant. -/
theorem steps_of_not_overlong (h : chosen c o = .ok s) (hr : s.request? = some r) (hlong : ¬ Overlong c o) :
    o.style = .ok o.meantStyle ∧ o.checkLength o.meantStyle s = .ok () := by
  rw [Overlong, not_or, not_not, tooLong_iff h hr] at hlong
  exact ⟨GenerateOptions.style_of_fits hlong.1, GenerateOptions.checkLength_eq_ok hr hlong.2⟩

/-- **The editor is printed**, or cannot be made. -/
theorem effect_generate_of_stdout (h : chosen c o = .ok s) (hr : s.request? = some r) (hlong : ¬ Overlong c o)
    (hout : o.stdout = true) (files : σ) :
    effect (generate (m := StateM σ) c o) files = ((r.text o.meantStyle).mapError .editor, files) := by
  obtain ⟨hstyle, hlength⟩ := steps_of_not_overlong h hr hlong
  rw [generate, h, effect_mk_ok_bind, hstyle, effect_mk_ok_bind, hlength, effect_mk_ok_bind, if_pos hout, hr]
  cases htext : r.text o.meantStyle <;> simp only [htext] <;> rfl

/-- What is said of what was written. -/
def said (p : Text) : Option WriteOutcome → Text
  | some outcome => outcomeLine p outcome
  | none => []

/-- The failure of a command whose editor is not created. -/
def notCreated (p : Text) : CreateError → Failure
  | .editor e => .editor e
  | .file e => .write p e

/-- **The editor is created** from the session. -/
theorem effect_generate_of_path (h : chosen c o = .ok s) (hr : s.request? = some r) (hlong : ¬ Overlong c o)
    (hout : o.stdout = false) (hp : o.output.or (s.defaultPath? c.source) = some p) (files : σ) :
    effect (generate (m := StateM σ) c o) files =
      (((effect (s.create (m := StateM σ) o.meantStyle (some p)) files).1.map (said p)).mapError (notCreated p),
        (effect (s.create (m := StateM σ) o.meantStyle (some p)) files).2) := by
  obtain ⟨hstyle, hlength⟩ := steps_of_not_overlong h hr hlong
  rw [generate, h, effect_mk_ok_bind, hstyle, effect_mk_ok_bind, hlength, effect_mk_ok_bind,
    if_neg (by simp [hout]), hp]
  simp only
  rw [effect_bind, effect_adapt]
  rcases effect (s.create (m := StateM σ) o.meantStyle (some p)) files with ⟨e | (_ | outcome), t⟩
  · cases e <;> rfl
  · rfl
  · rfl

/-- **What the command does**: it fails over its options or because a text is too long, or else it makes an editor of
the match, and prints or creates this. -/
theorem effect_generate_cases (c : Catalogue) (o : GenerateOptions) (files : σ) :
    (¬ Meets c o ∧ ∃ f, f.exitCode = 1 ∧ effect (generate (m := StateM σ) c o) files = (.error f, files)) ∨
    (Meets c o ∧ Overlong c o ∧ effect (generate (m := StateM σ) c o) files = (.error .tooLong, files)) ∨
    (Meets c o ∧ ¬ Overlong c o ∧ ∃ (e : Entry) (s : Session),
      c.source.resolve o.script = some e.type ∧ s.type = some e.type ∧
      s.request? = some ⟨e.type, s.selected, o.target⟩ ∧
      (o.stdout = true → effect (generate (m := StateM σ) c o) files =
        ((EditorRequest.text ⟨e.type, s.selected, o.target⟩ o.meantStyle).mapError .editor, files)) ∧
      (o.stdout = false → ∀ p, o.output.getD e.editorPath = p → effect (generate (m := StateM σ) c o) files =
        (((effect (s.create (m := StateM σ) o.meantStyle (some p)) files).1.map (said p)).mapError (notCreated p),
          (effect (s.create (m := StateM σ) o.meantStyle (some p)) files).2))) := by
  obtain ⟨hmeets, -⟩ | ⟨hmeets, f, hchosen, hexit⟩ := chosen_cases c o
  · obtain ⟨i, e, s, hmatch, hresolve, hchosen, htype, hr⟩ := hmeets.exists_chosen
    by_cases hlong : Overlong c o
    · exact Or.inr (Or.inl ⟨hmeets, hlong, effect_generate_of_overlong hchosen hr hlong files⟩)
    · refine Or.inr (Or.inr ⟨hmeets, hlong, e, s, hresolve, htype, hr, fun hout => ?_, fun hout p hp => ?_⟩)
      · exact effect_generate_of_stdout hchosen hr hlong hout files
      · rw [← hp]
        exact effect_generate_of_path hchosen hr hlong hout (output_or_defaultPath? hmatch.mem htype o.output) files
  · exact Or.inl ⟨hmeets, f, hexit, effect_generate_of_chosen_error hchosen files⟩

/-! ### Reports -/

/-- What is reported of what a command gives. -/
def reportOf : Except Failure Text → Report
  | .ok out => { exitCode := 0, out }
  | .error e => { exitCode := e.exitCode, err := if e.message.isEmpty then [] else e.message ++ ['\n'] }

theorem run_report (i : Invocation) (files : σ) :
    (report (m := StateM σ) i).run files =
      (reportOf (effect (perform (m := StateM σ) i) files).1, (effect (perform (m := StateM σ) i) files).2) := by
  have hrun : (report (m := StateM σ) i).run files =
      ((match (effect (perform (m := StateM σ) i) files).1 with
        | .ok out => pure { exitCode := 0, out }
        | .error e => pure
          { exitCode := e.exitCode
            err := if e.message.isEmpty then [] else e.message ++ ['\n'] } : StateM σ Report)).run
        (effect (perform (m := StateM σ) i) files).2 := rfl
  rw [hrun]
  cases (effect (perform (m := StateM σ) i) files).1 <;> rfl

/-- Nothing is generated without a manifest. -/
theorem effect_perform_of_error {schema : Text} {files t : σ} {e : Manifest.Error}
    (h : effect (Manifest.load (m := StateM σ) schema) files = (.error e, t)) :
    effect (perform (m := StateM σ) ⟨schema, .generate o⟩) files = (.error (.manifest e), t) := by
  have hload : effect ((Manifest.load (m := StateM σ) schema).adapt Failure.manifest) files =
      (.error (.manifest e), t) := by rw [effect_adapt, h]; rfl
  rw [perform, effect_bind_error hload]

theorem effect_perform_of_ok {schema : Text} {files t : σ}
    (h : effect (Manifest.load (m := StateM σ) schema) files = (.ok c, t)) :
    effect (perform (m := StateM σ) ⟨schema, .generate o⟩) files = effect (generate (m := StateM σ) c o) t := by
  rw [perform, effect_bind_ok (effect_adapt_ok h _)]

end EditorScaffold.CommandLine
