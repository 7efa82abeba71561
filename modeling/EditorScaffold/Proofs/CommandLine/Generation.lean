import EditorScaffold.Proofs.CommandLine.Effect
import EditorScaffold.Proofs.Tree.Overwrite

/-! # Generating an editor

The command that makes an editor leaves all files as they are if the manifest gives no catalogue or the options cannot
be met. Else there is one text for the manifest and the options, wherever it goes (`Renders`): it is printed, or written
as an editor is written to a path, with the same outcome. So what is printed is what is in the file that is created
(`generate_renders_one_text`). Only a text that is longer than a text can be keeps the command from this; it then stops
before it touches any file. -/

namespace EditorScaffold

namespace Tree

variable {s : Tree} {schema path text guardSymbol : Text}

/-- The catalogue that the file at a path spells. -/
def manifest (s : Tree) (schema : Text) : Except Manifest.Error Catalogue :=
  match s.read schema with
  | .ok t => Manifest.ofText t
  | .error e => .error (.unreadable schema e)

/-- Loading a manifest changes nothing. -/
theorem effect_load (s : Tree) (schema : Text) :
    effect (Manifest.load (m := StateM Tree) schema) s = (s.manifest schema, s) := by
  unfold manifest
  have hload : effect (Manifest.load (m := StateM Tree) schema) s =
      (match s.read schema with
        | .ok t => pure (Manifest.ofText t)
        | .error e => pure (.error (.unreadable schema e)) : StateM Tree (Except Manifest.Error Catalogue)).run s := rfl
  rw [hload]
  cases s.read schema <;> rfl

/-- What is written where nothing is present is read there. -/
theorem read_writing_of_absent (hp : s.present path = false) {outcome : WriteOutcome}
    (h : (s.writing path text guardSymbol).1 = .ok outcome) :
    (s.writing path text guardSymbol).2.read path = .ok text := by
  unfold writing at h ⊢
  rcases write_cases s path (.text text) with ⟨e, t, -, hw⟩ | ⟨t, way, name, hready, hw⟩
  · rw [effect_writeEditor_of_absent hp hw] at h
    cases h
  · rw [effect_writeEditor_of_absent hp hw]
    exact hready.read_put text

end Tree

namespace CommandLine

variable {c : Catalogue} {e : Entry} {s : Tree} {schema text : Text} {o : GenerateOptions}

/-! ### Reports of generating -/

/-- What the program reports of the command that makes an editor, and the tree after it. -/
def generating (s : Tree) (schema : Text) (o : GenerateOptions) : Report × Tree :=
  (report (m := StateM Tree) ⟨schema, .generate o⟩).run s

theorem generating_of_error {e : Manifest.Error} (h : s.manifest schema = .error e) (o : GenerateOptions) :
    generating s schema o = (reportOf (.error (.manifest e)), s) := by
  have hload := s.effect_load schema
  rw [h] at hload
  rw [generating, run_report, effect_perform_of_error hload]

theorem generating_of_ok (h : s.manifest schema = .ok c) (o : GenerateOptions) :
    generating s schema o =
      (reportOf (effect (generate (m := StateM Tree) c o) s).1, (effect (generate (m := StateM Tree) c o) s).2) := by
  have hload := s.effect_load schema
  rw [h] at hload
  rw [generating, run_report, effect_perform_of_ok hload]

/-- **A command is refused**: it fails, prints nothing, and changes nothing. -/
structure Refused (s : Tree) (result : Report × Tree) : Prop where
  exitCode : result.1.exitCode = 1
  out : result.1.out = []
  unchanged : result.2 = s

/-- What is reported of an editor that was written or not. -/
def writeReport (p : Text) : Except FileError WriteOutcome → Report
  | .ok outcome => { exitCode := 0, out := outcomeLine p outcome }
  | .error e => { exitCode := 1, err := (Failure.write p e).message ++ ['\n'] }

theorem reportOf_write (p : Text) (result : Except FileError WriteOutcome) :
    reportOf ((result.map (outcomeLine p)).mapError (.write p)) = writeReport p result := by
  cases result <;> rfl

/-! ### One text -/

/-- **One text, wherever it goes**: it is printed and nothing changes, or it is written to the path that is given, or
beside the script of the entry, just as an editor is written. What is created where nothing was is this text. -/
structure Renders (c : Catalogue) (o : GenerateOptions) (e : Entry) (text : Text) : Prop where
  printed : ∀ s schema output, s.manifest schema = .ok c →
    generating s schema { o with output, stdout := true } = ({ exitCode := 0, out := text }, s)
  written : ∀ s schema output p, s.manifest schema = .ok c → output ≠ some [] → output.getD e.editorPath = p →
    generating s schema { o with output, stdout := false } =
      (writeReport p (s.writing p text "UNITY_EDITOR".toList).1, (s.writing p text "UNITY_EDITOR".toList).2)
  created : ∀ s schema output p, s.manifest schema = .ok c → output ≠ some [] → output.getD e.editorPath = p →
    s.present p = false → (generating s schema { o with output, stdout := false }).1.exitCode = 0 →
    (generating s schema { o with output, stdout := false }).2.read p = .ok text

section Texts

variable {session : Session} {style : Style} {r : EditorRequest}

theorem generating_of_overlong (h : s.manifest schema = .ok c) (hchosen : chosen c o = .ok session)
    (hr : session.request? = some r) (hlong : Overlong c o) :
    generating s schema o = ({ exitCode := 101 }, s) := by
  rw [generating_of_ok h, effect_generate_of_overlong hchosen hr hlong]
  rfl

theorem generating_printed (h : s.manifest schema = .ok c) (hchosen : chosen c o = .ok session)
    (hr : session.request? = some r) (htext : r.text o.meantStyle = .ok text) (hlong : ¬ Overlong c o)
    (hout : o.stdout = true) : generating s schema o = ({ exitCode := 0, out := text }, s) := by
  rw [generating_of_ok h, effect_generate_of_stdout hchosen hr hlong hout, htext]
  rfl

theorem generating_written {p : Text} (h : s.manifest schema = .ok c) (hchosen : chosen c o = .ok session)
    (hr : session.request? = some r) (htext : r.text o.meantStyle = .ok text) (hlong : ¬ Overlong c o)
    (hout : o.stdout = false) (hp : o.output.or (session.defaultPath? c.source) = some p) (hne : p ≠ []) :
    generating s schema o =
      (writeReport p (s.writing p text o.meantStyle.guardSymbol).1,
        (s.writing p text o.meantStyle.guardSymbol).2) := by
  rw [generating_of_ok h, effect_generate_of_path hchosen hr hlong hout hp, Session.effect_create_of_text hne hr htext,
    ← reportOf_write]
  unfold Tree.writing
  cases (effect (writeEditor (m := StateM Tree) p text o.meantStyle.guardSymbol) s).1 <;> rfl

/-- What no text is too long for wherever it goes is rendered. -/
theorem renders_of_chosen (hchosen : chosen c o = .ok session) (he : e ∈ c.entries) (htype : session.type = some e.type)
    (hr : session.request? = some r) (htext : r.text o.meantStyle = .ok text) (hfits : o.Fits)
    (hlong : ¬ TooLong c o) : Renders c o e text := by
  have hshort : ∀ output stdout, ¬ Overlong c { o with output, stdout } := by
    rintro output stdout (h | ⟨-, h⟩)
    · exact h hfits
    · exact hlong h
  have hwritten : ∀ s schema output p, s.manifest schema = .ok c → output ≠ some [] →
      output.getD e.editorPath = p → generating s schema { o with output, stdout := false } =
        (writeReport p (s.writing p text "UNITY_EDITOR".toList).1, (s.writing p text "UNITY_EDITOR".toList).2) := by
    intro s schema output p h hne hp
    rw [← o.meantStyle_guardSymbol, ← hp]
    exact generating_written (o := { o with output, stdout := false }) h hchosen hr htext (hshort output false) rfl
      (output_or_defaultPath? he htype output) (getD_editorPath_ne_nil hne e)
  refine ⟨fun s schema output h => ?_, hwritten, fun s schema output p h hne hp habsent hexit => ?_⟩
  · exact generating_printed (o := { o with output, stdout := true }) h hchosen hr htext (hshort output true) rfl
  · rw [hwritten s schema output p h hne hp] at hexit ⊢
    cases hresult : (s.writing p text "UNITY_EDITOR".toList).1 with
    | error e =>
      rw [hresult] at hexit
      cases hexit
    | ok outcome => exact Tree.read_writing_of_absent habsent hresult

end Texts

/-- **There is one text for a manifest and options that can be met**, wherever it goes, if a text can be so long.
Without a catalogue, and for options that cannot be met, the command is refused. A text that is too long stops the
command wherever the text is to go, and so does a unit of indentation that is; no file is changed then. -/
theorem generate_renders_one_text (c : Catalogue) (hnamed : ∀ e ∈ c.entries, e.type.name ≠ [])
    (o : GenerateOptions) :
    (∀ s schema e, s.manifest schema = .error e → Refused s (generating s schema o)) ∧
    (¬ Meets c o → ∀ s schema output stdout, s.manifest schema = .ok c →
      Refused s (generating s schema { o with output, stdout })) ∧
    (Meets c o → ∃ i e session text, Catalogue.IsMatch c.entries o.script i e ∧ chosen c o = .ok session ∧
      EditorRequest.text ⟨e.type, session.selected, o.target⟩ o.meantStyle = .ok text ∧
      (text.byteSize ≤ Text.maxByteSize → Renders c o e text) ∧
      (Text.maxByteSize < text.byteSize → ∀ s schema output stdout, s.manifest schema = .ok c →
        stdout = true ∨ output ≠ some [] →
        generating s schema { o with output, stdout } = ({ exitCode := 101 }, s))) ∧
    (Meets c o → ¬ o.Fits → ∀ s schema output stdout, s.manifest schema = .ok c →
      generating s schema { o with output, stdout } = ({ exitCode := 101 }, s)) := by
  refine ⟨fun s schema e h => ?_, fun hmeets s schema output stdout h => ?_, fun hmeets => ?_,
    fun hmeets hwide s schema output stdout h => ?_⟩
  · rw [generating_of_error h]
    exact ⟨rfl, rfl, rfl⟩
  -- what is chosen does not depend on where the text goes, so it is looked at for `o` in all cases
  · obtain ⟨hmeets', -⟩ | ⟨-, f, hchosen, hexit⟩ := chosen_cases c o
    · exact absurd hmeets' hmeets
    · rw [generating_of_ok h, effect_generate_of_chosen_error (o := { o with output, stdout }) hchosen]
      exact ⟨hexit, rfl, rfl⟩
  · obtain ⟨i, e, session, hmatch, -, hchosen, htype, hr⟩ := hmeets.exists_chosen
    have htext := EditorRequest.text_eq_ok (r := ⟨e.type, session.selected, o.target⟩) (hnamed e hmatch.mem)
      o.meantStyle
    refine ⟨i, e, session, _, hmatch, hchosen, htext, fun hle => ?_, fun hlt s schema output stdout h hasks => ?_⟩
    · exact renders_of_chosen hchosen hmatch.mem htype hr htext (GenerateOptions.fits_of_byteSize_text_le hle)
        ((tooLong_iff hchosen hr).not.2 (Nat.not_lt.2 hle))
    · exact generating_of_overlong (o := { o with output, stdout }) h hchosen hr
        (Or.inr ⟨hasks, (tooLong_iff hchosen hr).2 hlt⟩)
  · obtain ⟨i, e, session, -, -, hchosen, -, hr⟩ := hmeets.exists_chosen
    exact generating_of_overlong (o := { o with output, stdout }) h hchosen hr (Or.inl hwide)

/-- A catalogue with nothing but a door. -/
def door : Catalogue := ⟨[{ type := ⟨"Door".toList, []⟩ }], by decide⟩

/-- The file that spells it. -/
def doorFiles : Tree :=
  .single "types.json".toList (.text "\x7b\"types\":[\x7b\"name\":\"Door\"\x7d]\x7d".toList)

/-- The command for a door, indented by so many spaces. -/
def wideDoor (width : Nat) : GenerateOptions := { script := "Door".toList, indentSpaces := some width }

/-- What is printed for a door is what is created for it. There is nothing for a gate, nor for a door that is indented
by more than a text can hold, or by so much that three times as much is more. -/
theorem door_printed_and_created :
    doorFiles.manifest "types.json".toList = .ok door ∧
    (∃ text, generating doorFiles "types.json".toList { script := "Door".toList, stdout := true } =
        ({ exitCode := 0, out := text }, doorFiles) ∧
      (generating doorFiles "types.json".toList { script := "Door".toList }).2.read "DoorEditor.cs".toList =
        .ok text) ∧
    Refused doorFiles (generating doorFiles "no.json".toList { script := "Door".toList }) ∧
    Refused doorFiles (generating doorFiles "types.json".toList { script := "Gate".toList }) ∧
    generating doorFiles "types.json".toList (wideDoor (Text.maxByteSize + 1)) = ({ exitCode := 101 }, doorFiles) ∧
    generating doorFiles "types.json".toList (wideDoor (Nat.pow 2 62)) = ({ exitCode := 101 }, doorFiles) := by
  have hload : doorFiles.manifest "types.json".toList = .ok door := rfl
  have hnamed : ∀ e ∈ door.entries, e.type.name ≠ [] := by decide
  have hmeets : ∀ o : GenerateOptions, o.script = "Door".toList → o.only = [] → o.skip = [] → Meets door o := by
    rintro ⟨⟩ rfl rfl rfl
    exact ⟨⟨_, rfl⟩, by simp⟩
  obtain ⟨hmissing, -, htext, -⟩ := generate_renders_one_text door hnamed { script := "Door".toList }
  obtain ⟨-, hrefused, -⟩ := generate_renders_one_text door hnamed { script := "Gate".toList }
  obtain ⟨-, -, -, hwide⟩ := generate_renders_one_text door hnamed (wideDoor (Text.maxByteSize + 1))
  obtain ⟨-, -, hlong, -⟩ := generate_renders_one_text door hnamed (wideDoor (Nat.pow 2 62))
  refine ⟨hload, ?_, hmissing _ _ _ rfl, ?_, ?_, ?_⟩
  · obtain ⟨i, e, session, text, hmatch, hchosen, htext, hrenders, -⟩ := htext (hmeets _ rfl rfl rfl)
    obtain rfl : e = { type := ⟨"Door".toList, []⟩ } := List.mem_singleton.1 hmatch.mem
    have hselected : session.selected = [] := by cases hchosen; rfl
    rw [hselected, EditorRequest.text_eq_ok (by decide)] at htext
    have hshort : text.byteSize ≤ Text.maxByteSize := by
      rw [← Except.ok.inj htext]
      decide +kernel
    have hrendered := hrenders hshort
    refine ⟨text, hrendered.printed _ _ none hload, hrendered.created _ _ none _ hload (by decide) rfl (by decide) ?_⟩
    rw [hrendered.written _ _ none _ hload (by decide) rfl]
    rfl
  · exact hrefused (fun h => by obtain ⟨t, ht⟩ := h.resolves; cases ht) _ _ none false hload
  · exact hwide (hmeets _ rfl rfl rfl) (fun h => absurd (h _ rfl) (by decide)) _ _ none false hload
  -- nothing is computed here that has the text as a part
  · obtain ⟨i, e, session, text, hmatch, -, htext, -, hstops⟩ := hlong (hmeets _ rfl rfl rfl)
    rw [EditorRequest.text_eq_ok (hnamed e hmatch.mem)] at htext
    have hthree := EditorRequest.three_mul_byteSize_le_text ⟨e.type, session.selected, false⟩
      (wideDoor (Nat.pow 2 62)).meantStyle
    rw [GenerateOptions.byteSize_indentUnit_meantStyle rfl] at hthree
    refine hstops ?_ _ _ none false hload (Or.inr (by simp))
    rw [← Except.ok.inj htext]
    exact Nat.lt_of_lt_of_le (by decide) hthree

end CommandLine

end EditorScaffold
