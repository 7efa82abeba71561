import EditorScaffold.Proofs.Editor.Lines
import EditorScaffold.Proofs.Merge.Repeated
import EditorScaffold.Proofs.Store.Effect
import EditorScaffold.Session
import EditorScaffold.Store.Memory
import Mathlib.Data.List.Forall2

/-! # Files that grow by editors

Editors are written one after the other to one path of a memory. Each generated text starts with the import
(`importStart_prefix_text`), so every file that holds one imports the framework, and all later texts are
appended as they are: the file is what it was after the first write, followed by the other texts on lines of
their own (`effect_writeEditors_of_hasImport`, `writeEditors_appends_in_order`). -/

namespace EditorScaffold

open Text

/-- Writes editors to a path, one after the other. -/
def writeEditors {m : Type → Type} [Monad m] [FileStore m] (path : Text) :
    List (EditorRequest × Style) → ExceptT CreateError m (List WriteOutcome)
  | [] => return []
  | (request, style) :: jobs => do
    match request.text style with
    | .error e => throw (.editor e)
    | .ok text =>
      let outcome ← (writeEditor path text style.guardSymbol).adapt CreateError.file
      let outcomes ← writeEditors path jobs
      return outcome :: outcomes

/-! ### The generated text -/

/-- Whatever the style, a generated text starts with the import. -/
theorem EditorRequest.importStart_prefix_text (r : EditorRequest) (style : Style) :
    Editor.importStart <+: Layout.text style r.layout := by
  obtain ⟨ls, hls⟩ : ∃ ls, r.layout = .line Editor.importStatement :: ls := ⟨_, rfl⟩
  rw [Layout.text_eq, hls]
  refine ⟨';' :: style.lineEnding ++ style.text (Layout.flattenAll 0 ls), ?_⟩
  simp only [Layout.flattenAll, Layout.flatten, List.cons_append, List.nil_append, Style.text_cons,
    Style.line, Editor.importStatement, List.replicate_zero, List.flatten_nil, List.append_assoc]

theorem EditorRequest.hasImport_text (r : EditorRequest) (style : Style) :
    Merge.hasImport (Layout.text style r.layout).lines = true := by
  rw [Merge.hasImport_lines_iff]
  exact ⟨0, Or.inl rfl, r.importStart_prefix_text style⟩

/-! ### One write to a memory -/

namespace Memory

theorem run_present (s : Memory) (path : Text) :
    (FileStore.present (m := StateM Memory) path).run s = (s.present path, s) := rfl

theorem effect_readText (s : Memory) (path : Text) :
    effect (FileStore.readText (m := StateM Memory) path) s = (s.read path, s) := rfl

theorem effect_writeText (s : Memory) (path text : Text) :
    effect (FileStore.writeText (m := StateM Memory) path text) s =
      match s.write path text with
      | .ok t => (.ok (), t)
      | .error e => (.error e, s) := by
  have h : effect (FileStore.writeText (m := StateM Memory) path text) s =
      effect (match s.write path text with
        | .ok t => set t
        | .error e => throw e) s := rfl
  rw [h]
  cases s.write path text <;> rfl

/-- The path can be read and written. -/
structure Accessible (s : Memory) (path : Text) : Prop where
  readable : s.isUnreadable path = false
  writable : s.readOnly = false

variable {s : Memory} {path q : Text}

theorem present_eq_of_readable (h : s.isUnreadable path = false) : s.present path = (s.file? path).isSome := by
  rw [Memory.present, h, Bool.or_false]

theorem read_of_readable (h : s.isUnreadable path = false) {e : Text} (he : s.file? path = some e) :
    s.read path = .ok e := by
  rw [Memory.read, if_neg (Bool.eq_false_iff.1 h), he]

/-- A file stays under the path that it is found under. -/
theorem key_spelling (s : Memory) (path : Text) : Path.key (s.spelling path) = Path.key path := by
  unfold spelling
  cases hfind : s.files.find? fun f => Path.Same f.1 path with
  | none => rfl
  | some f => exact of_decide_eq_true (List.find?_some hfind :)

theorem table_put (s : Memory) (path text : Text) :
    (s.put path text).table = s.table.put (Path.key path) text := by
  rw [table, put, List.map_cons, key_spelling, Table.put, Table.erase_eq_filter, table, List.filter_map]
  rfl

theorem file?_put (s : Memory) (path text : Text) : (s.put path text).file? path = some text := by
  rw [file?, table_put, Table.get?_put_self]

theorem file?_put_of_ne (h : ¬ Path.Same q path) (s : Memory) (text : Text) :
    (s.put path text).file? q = s.file? q := by
  rw [file?, table_put, Table.get?_put_of_ne h, file?]

namespace Accessible

theorem put (h : s.Accessible path) (text : Text) : (s.put path text).Accessible path :=
  ⟨h.readable, h.writable⟩

theorem write_eq (h : s.Accessible path) (text : Text) : s.write path text = .ok (s.put path text) := by
  have hw : ¬ s.readOnly = true := Bool.eq_false_iff.1 h.writable
  rw [Memory.write, if_neg hw]

theorem effect_writeText (h : s.Accessible path) (text : Text) :
    effect (FileStore.writeText (m := StateM Memory) path text) s = (.ok (), s.put path text) := by
  rw [Memory.effect_writeText, h.write_eq]

/-- A write where no file is. -/
theorem effect_writeEditor_new (h : s.Accessible path) (hnone : s.file? path = none)
    (generated guardSymbol : Text) :
    effect (writeEditor (m := StateM Memory) path generated guardSymbol) s =
      (.ok .created, s.put path generated) := by
  have hp : (FileStore.present (m := StateM Memory) path).run s = (false, s) := by
    rw [run_present, present_eq_of_readable h.readable, hnone]
    rfl
  rw [effect_writeEditor_absent hp, effect_bind_ok (h.effect_writeText generated)]
  rfl

/-- A write where a file is. -/
theorem effect_writeEditor_old (h : s.Accessible path) {e : Text} (he : s.file? path = some e)
    (generated guardSymbol : Text) :
    effect (writeEditor (m := StateM Memory) path generated guardSymbol) s =
      (.ok (.appended (Merge.merge e generated guardSymbol).inserted),
        s.put path (Merge.merge e generated guardSymbol).text) := by
  have hp : (FileStore.present (m := StateM Memory) path).run s = (true, s) := by
    rw [run_present, present_eq_of_readable h.readable, he]
    rfl
  have hr : effect (FileStore.readText (m := StateM Memory) path) s = (.ok e, s) := by
    rw [effect_readText, read_of_readable h.readable he]
  rw [effect_writeEditor_present hp, effect_bind_ok hr, effect_bind_ok (h.effect_writeText _)]
  rfl

end Accessible

end Memory

/-! ### Many writes to a memory -/

section Writes

variable {s : Memory} {path : Text}

/-- One write of a run: the editor is made and written, and the others follow. -/
theorem effect_writeEditors_cons {t : Memory} {r : EditorRequest} (hr : r.type.name ≠ []) {style : Style}
    {outcome : WriteOutcome}
    (h : effect (writeEditor (m := StateM Memory) path (Layout.text style r.layout) style.guardSymbol) s =
      (.ok outcome, t)) (jobs : List (EditorRequest × Style)) :
    effect (writeEditors (m := StateM Memory) path ((r, style) :: jobs)) s =
      effect (do
        let outcomes ← writeEditors (m := StateM Memory) path jobs
        return outcome :: outcomes) t := by
  rw [writeEditors]
  simp only [r.text_eq_ok hr]
  rw [effect_bind_ok (effect_adapt_ok h CreateError.file)]

/-- The generated texts of editors. -/
def generatedTexts (jobs : List (EditorRequest × Style)) : List Text :=
  jobs.map fun job => Layout.text job.2 job.1.layout

theorem unlines_append_newline (t u : Text) (ls : List Text) :
    unlines ((t ++ '\n' :: u) :: ls) = unlines (t :: u :: ls) := by
  by_cases h : ls = []
  · rw [h]
    rfl
  · rw [unlines_cons _ h, unlines_cons t (List.cons_ne_nil u ls), unlines_cons u h, List.append_assoc]
    rfl

/-- **A file that imports the framework only grows**: the texts of all editors follow it in order, each
after a newline. -/
theorem effect_writeEditors_of_hasImport (h : s.Accessible path) {t : Text}
    (ht : s.file? path = some t) (himp : Merge.hasImport t.lines = true)
    {jobs : List (EditorRequest × Style)} (hnames : ∀ job ∈ jobs, job.1.type.name ≠ []) :
    ∃ s' : Memory, effect (writeEditors (m := StateM Memory) path jobs) s =
        (.ok (List.replicate jobs.length (.appended false)), s') ∧
      s'.file? path = some (unlines (t :: generatedTexts jobs)) := by
  induction jobs generalizing s t with
  | nil => exact ⟨s, rfl, ht⟩
  | cons job jobs ih =>
    obtain ⟨r, style⟩ := job
    let g := Layout.text style r.layout
    have hone := h.effect_writeEditor_old ht g style.guardSymbol
    rw [Merge.merge_of_hasImport himp g style.guardSymbol] at hone
    obtain ⟨s', hrun, hfile⟩ := ih (h.put _) (Memory.file?_put s path (t ++ '\n' :: g))
      (Merge.hasImport_lines_append_newline himp g) fun job hjob => hnames job (List.mem_cons_of_mem _ hjob)
    refine ⟨s', ?_, ?_⟩
    · rw [effect_writeEditors_cons (hnames (r, style) List.mem_cons_self) hone, effect_bind_ok hrun]
      rfl
    · rw [hfile, unlines_append_newline]
      rfl

/-- The first write of a run leaves a file that imports the framework, and the others follow. -/
theorem effect_writeEditors_of_first (h : s.Accessible path) {r : EditorRequest} {style : Style} {t : Text}
    {outcome : WriteOutcome}
    (hone : effect (writeEditor (m := StateM Memory) path (Layout.text style r.layout) style.guardSymbol) s =
      (.ok outcome, s.put path t))
    (himp : Merge.hasImport t.lines = true) {jobs : List (EditorRequest × Style)}
    (hnames : ∀ job ∈ (r, style) :: jobs, job.1.type.name ≠ []) :
    ∃ s' : Memory, effect (writeEditors (m := StateM Memory) path ((r, style) :: jobs)) s =
        (.ok (outcome :: List.replicate jobs.length (.appended false)), s') ∧
      s'.file? path = some (unlines (t :: generatedTexts jobs)) := by
  obtain ⟨s', hrun, hfile⟩ := effect_writeEditors_of_hasImport (h.put t) (Memory.file?_put s path t) himp
    fun job hjob => hnames job (List.mem_cons_of_mem _ hjob)
  refine ⟨s', ?_, hfile⟩
  rw [effect_writeEditors_cons (hnames (r, style) List.mem_cons_self) hone, effect_bind_ok hrun]
  rfl

/-- **Editors written to one path are all kept, in their order.** Every write succeeds. If there was no
file, the first write makes one, all others append without an import, and the file is the generated texts
with a newline between neighbours. If there was a file, only the first write may insert an import, and
the file is what the first merge gives, with the other generated texts after it. -/
theorem writeEditors_appends_in_order (s : Memory) (path : Text) (r : EditorRequest) (style : Style)
    (jobs : List (EditorRequest × Style)) (hread : s.isUnreadable path = false) (hwrite : s.readOnly = false)
    (hnames : ∀ job ∈ (r, style) :: jobs, job.1.type.name ≠ []) :
    ∃ (g : Text) (gs : List Text) (s' : Memory), r.text style = .ok g ∧
      List.Forall₂ (fun job g => job.1.text job.2 = .ok g) jobs gs ∧
      (s.file? path = none →
        effect (writeEditors (m := StateM Memory) path ((r, style) :: jobs)) s =
            (.ok (.created :: List.replicate jobs.length (.appended false)), s') ∧
          s'.file? path = some (unlines (g :: gs))) ∧
      ∀ e, s.file? path = some e →
        effect (writeEditors (m := StateM Memory) path ((r, style) :: jobs)) s =
            (.ok (.appended (Merge.merge e g style.guardSymbol).inserted ::
              List.replicate jobs.length (.appended false)), s') ∧
          s'.file? path = some (unlines ((Merge.merge e g style.guardSymbol).text :: gs)) := by
  have h : s.Accessible path := ⟨hread, hwrite⟩
  have hgs : List.Forall₂ (fun job g => job.1.text job.2 = .ok g) jobs (generatedTexts jobs) := by
    rw [generatedTexts, List.forall₂_map_right_iff, List.forall₂_same]
    intro job hjob
    exact job.1.text_eq_ok (hnames job (List.mem_cons_of_mem _ hjob)) job.2
  cases he : s.file? path with
  | none =>
    obtain ⟨s', hrun, hfile⟩ := effect_writeEditors_of_first h
      (h.effect_writeEditor_new he _ style.guardSymbol) (r.hasImport_text style) hnames
    exact ⟨_, _, s', r.text_eq_ok (hnames (r, style) List.mem_cons_self) style, hgs,
      fun _ => ⟨hrun, hfile⟩, fun e he' => absurd he' (Option.some_ne_none e).symm⟩
  | some e =>
    obtain ⟨s', hrun, hfile⟩ := effect_writeEditors_of_first h
      (h.effect_writeEditor_old he _ style.guardSymbol)
      (Merge.hasImport_merge_text e (r.hasImport_text style) style.guardSymbol) hnames
    refine ⟨_, _, s', r.text_eq_ok (hnames (r, style) List.mem_cons_self) style, hgs,
      fun he' => absurd he' (Option.some_ne_none e), fun e' he' => ?_⟩
    obtain rfl := Option.some.inj he'
    exact ⟨hrun, hfile⟩

/-- Two editors for a type, written to a file that declares a class and imports nothing. -/
theorem writeEditors_appends_in_order_twice :
    ∃ s' : Memory,
      effect (writeEditors (m := StateM Memory) "A.cs".toList
          [(⟨⟨"Door".toList, []⟩, [], false⟩, {}), (⟨⟨"Door".toList, []⟩, [], true⟩, { lineEnding := [] })])
          { files := [("A.cs".toList, "public class A {}".toList)] } =
        (.ok [.appended true, .appended false], s') := by
  obtain ⟨g, gs, s', -, -, -, h⟩ := writeEditors_appends_in_order
    { files := [("A.cs".toList, "public class A {}".toList)] } "A.cs".toList
    ⟨⟨"Door".toList, []⟩, [], false⟩ {} [(⟨⟨"Door".toList, []⟩, [], true⟩, { lineEnding := [] })]
    (by decide) rfl (by decide)
  exact ⟨s', (h "public class A {}".toList rfl).1⟩

end Writes

end EditorScaffold
