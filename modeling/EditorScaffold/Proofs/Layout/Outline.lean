import EditorScaffold.Editor
import EditorScaffold.Proofs.Layout.Indentation
import Mathlib.Algebra.Order.BigOperators.Group.List
import Mathlib.Algebra.Order.Group.Nat

/-! # Outlines

The outline of a tree of pieces lists its lines with their depths below the place where the tree is laid out. It is
fixed by the tree (`isOutline_outline`), and a writer adds its own depth and the style (`run_follows_outline`). No other
list does so: under a line ending longer than all lines, no line can be taken for the end of another one, so the text
tells the lines (`Text.eq_of_flatMap_longEnding_eq`), and how much an indentation unit adds to them tells the depths
(`Style.eq_of_text_eq`). -/

namespace EditorScaffold

namespace Layout

/-! ### The outline of a tree -/

/-- The lines so many levels deeper. -/
def deeper (k : Nat) (ls : List (Nat × Text)) : List (Nat × Text) := ls.map fun l => (k + l.1, l.2)

/-- The outline of pieces: their lines, with the depths below the pieces themselves. -/
def outline (ls : List Layout) : List (Nat × Text) := flattenAll 0 ls

/-- **What an outline is**: a line stands at the depth of its piece, and so do the header and the braces of a block,
while its body is one level deeper. -/
structure IsOutline (o : List Layout → List (Nat × Text)) : Prop where
  nil : o [] = []
  line (content : Text) (ls : List Layout) : o (.line content :: ls) = (0, content) :: o ls
  blank (ls : List Layout) : o (.blank :: ls) = (0, []) :: o ls
  block (header : Text) (body ls : List Layout) : o (.block header body :: ls) =
    (0, header) :: (0, ['\x7b']) :: deeper 1 (o body) ++ (0, ['\x7d']) :: o ls
  braced (body ls : List Layout) : o (.braced body :: ls) =
    (0, ['\x7b']) :: deeper 1 (o body) ++ (0, ['\x7d']) :: o ls

theorem deeper_cons (k d : Nat) (t : Text) (ls : List (Nat × Text)) :
    deeper k ((d, t) :: ls) = (k + d, t) :: deeper k ls := rfl

theorem deeper_append (k : Nat) (ks ls : List (Nat × Text)) : deeper k (ks ++ ls) = deeper k ks ++ deeper k ls :=
  List.map_append

mutual

theorem flatten_add (k d : Nat) (l : Layout) : l.flatten (k + d) = deeper k (l.flatten d) := by
  match l with
  | .line _ => rfl
  | .blank => rfl
  | .block header body =>
    rw [flatten, flatten, deeper_append, deeper_cons, deeper_cons, ← flattenAll_add k (d + 1) body]
    rfl
  | .braced body =>
    rw [flatten, flatten, deeper_append, deeper_cons, ← flattenAll_add k (d + 1) body]
    rfl

/-- **Pieces laid out deeper** give the same lines, all of them deeper. -/
theorem flattenAll_add (k d : Nat) (ls : List Layout) : flattenAll (k + d) ls = deeper k (flattenAll d ls) := by
  match ls with
  | [] => rfl
  | l :: ls => rw [flattenAll, flattenAll, deeper_append, flatten_add k d l, flattenAll_add k d ls]

end

theorem isOutline_outline : IsOutline outline where
  nil := rfl
  line _ _ := rfl
  blank _ := rfl
  block header body ls := by
    have hbody : flattenAll (0 + 1) body = deeper 1 (flattenAll 0 body) := flattenAll_add 1 0 body
    unfold outline
    rw [flattenAll, flatten, hbody, List.append_assoc]
    rfl
  braced body ls := by
    have hbody : flattenAll (0 + 1) body = deeper 1 (flattenAll 0 body) := flattenAll_add 1 0 body
    unfold outline
    rw [flattenAll, flatten, hbody, List.append_assoc]
    rfl

end Layout

/-! ### What a text tells of its lines -/

namespace Text

/-- A line ending of blanks and a stop. -/
def longEnding (blanks : Nat) : Text := List.replicate blanks ' ' ++ ['.']

/-- The stop of an ending is not among the blanks of another one that begins a little later. -/
theorem not_length_lt_of_append_longEnding {n : Nat} {s t u v : Text} (ht : t.length ≤ n)
    (h : s ++ (longEnding n ++ u) = t ++ (longEnding n ++ v)) : ¬ s.length < t.length := by
  intro hlt
  have hstop : (s ++ (longEnding n ++ u))[s.length + n]? = some '.' := by
    rw [List.getElem?_append_right (Nat.le_add_right _ _), Nat.add_sub_cancel_left, longEnding, List.append_assoc,
      List.getElem?_append_right List.length_replicate.le, List.length_replicate, Nat.sub_self]
    rfl
  have hblank : (t ++ (longEnding n ++ v))[s.length + n]? = some ' ' := by
    have hindex : s.length + n - t.length < n := by omega
    rw [List.getElem?_append_right (by omega), longEnding, List.append_assoc,
      List.getElem?_append_left (by rwa [List.length_replicate]), List.getElem?_replicate, if_pos hindex]
  rw [h, hblank] at hstop
  exact absurd hstop (by decide)

/-- **A long ending tells where lines end.** -/
theorem eq_of_flatMap_longEnding_eq {n : Nat} {ks ls : List Text} (hk : ∀ k ∈ ks, k.length ≤ n)
    (hl : ∀ l ∈ ls, l.length ≤ n) (h : ks.flatMap (· ++ longEnding n) = ls.flatMap (· ++ longEnding n)) : ks = ls := by
  have hending : longEnding n ≠ [] := List.append_ne_nil_of_right_ne_nil _ (List.cons_ne_nil _ _)
  induction ks generalizing ls with
  | nil =>
    cases ls with
    | nil => rfl
    | cons l ls => simp [hending] at h
  | cons k ks ih =>
    cases ls with
    | nil => simp [hending] at h
    | cons l ls =>
      obtain ⟨hk, hks⟩ := List.forall_mem_cons.1 hk
      obtain ⟨hl, hls⟩ := List.forall_mem_cons.1 hl
      rw [List.flatMap_cons, List.flatMap_cons, List.append_assoc, List.append_assoc] at h
      have hlength : k.length = l.length :=
        le_antisymm (not_lt.1 (not_length_lt_of_append_longEnding hk h.symm))
          (not_lt.1 (not_length_lt_of_append_longEnding hl h))
      obtain ⟨rfl, hrest⟩ := List.append_inj h hlength
      rw [ih hks hls (List.append_cancel_left hrest)]

end Text

namespace Style

open Text

/-- A style whose line ending is a long one. -/
def longEnded (unit : Text) (n : Nat) : Style := ⟨unit, longEnding n, []⟩

theorem length_written (s : Style) (l : Nat × Text) :
    (s.written l).length = l.1 * s.indentUnit.length + l.2.length := by
  simp [written, indentation]

/-- **A text with long line endings tells its lines** as they are written. -/
theorem map_written_eq {n : Nat} {ks ls : List (Nat × Text)} (unit : Text) (hunit : unit.length ≤ 1)
    (hk : ∀ k ∈ ks, k.1 + k.2.length ≤ n) (hl : ∀ l ∈ ls, l.1 + l.2.length ≤ n)
    (h : (longEnded unit n).text ks = (longEnded unit n).text ls) :
    ks.map (longEnded unit n).written = ls.map (longEnded unit n).written := by
  have hlength (l : Nat × Text) (hl : l.1 + l.2.length ≤ n) : ((longEnded unit n).written l).length ≤ n := by
    have hdepth : l.1 * unit.length ≤ l.1 * 1 := Nat.mul_le_mul_left _ hunit
    rw [length_written, longEnded]
    dsimp only
    omega
  rw [text_eq_flatMap, text_eq_flatMap] at h
  exact Text.eq_of_flatMap_longEnding_eq (List.forall_mem_map.2 fun k hmem => hlength k (hk k hmem))
    (List.forall_mem_map.2 fun l hmem => hlength l (hl l hmem)) h

/-- Without a unit only the contents are written. -/
theorem written_longEnded_nil (n : Nat) (l : Nat × Text) : (longEnded [] n).written l = l.2 := by
  simp [written, indentation, longEnded]

/-- **The texts in all styles tell the lines** and their depths: the contents without a unit, and the depths by the
lengths with a unit of one blank. -/
theorem eq_of_text_eq {ks ls : List (Nat × Text)} (h : ∀ s : Style, s.text ks = s.text ls) : ks = ls := by
  obtain ⟨n, hk, hl⟩ : ∃ n, (∀ k ∈ ks, k.1 + k.2.length ≤ n) ∧ ∀ l ∈ ls, l.1 + l.2.length ≤ n := by
    refine ⟨((ks ++ ls).map fun l => l.1 + l.2.length).sum, ?_⟩
    rw [← List.forall_mem_append]
    exact fun l hl => List.le_sum_of_mem (List.mem_map_of_mem hl)
  have hcontents : ks.map (·.2) = ls.map (·.2) := by
    have hnone := map_written_eq [] (Nat.zero_le 1) hk hl (h (longEnded [] n))
    rwa [funext (written_longEnded_nil n)] at hnone
  have hdepths : ks.map (fun l => l.1 + l.2.length) = ls.map fun l => l.1 + l.2.length := by
    have hlength (l : Nat × Text) : ((longEnded [' '] n).written l).length = l.1 + l.2.length := by
      rw [length_written, longEnded, List.length_singleton, Nat.mul_one]
    have hblank := congrArg (List.map List.length) (map_written_eq [' '] le_rfl hk hl (h (longEnded [' '] n)))
    rw [List.map_map, List.map_map] at hblank
    rwa [funext fun l => (hlength l).symm]
  have hinj : Function.Injective fun l : Nat × Text => (l.2, l.1 + l.2.length) := by
    rintro ⟨d, t⟩ ⟨e, u⟩ heq
    obtain ⟨rfl, hsum⟩ := Prod.mk.inj heq
    exact Prod.ext (Nat.add_right_cancel hsum) rfl
  refine List.map_injective_iff.2 hinj ?_
  rw [← List.zip_map', ← List.zip_map', hcontents, hdepths]

end Style

/-! ### Writers and editors -/

namespace Writer

/-- **A writer follows the outline.** Whatever its style, its depth and what it has written, it appends the lines of the
outline, each after the indentation of its own depth and that of the line, and ends at the depth where it began. The
outline is the only list of lines that gives the text in every style. So all texts of an editor have the same lines at
the same depths, and the guard symbol makes no difference. -/
theorem run_follows_outline :
    Layout.IsOutline Layout.outline ∧
    (∀ (w : Writer) (ls : List Layout), (w.run ls).depth = w.depth ∧
      (w.run ls).output = w.output ++ (Layout.outline ls).flatMap fun l =>
        (List.replicate (w.depth + l.1) w.style.indentUnit).flatten ++ l.2 ++ w.style.lineEnding) ∧
    (∀ (ls : List Layout) (ks : List (Nat × Text)),
      (∀ s : Style, Layout.text s ls = s.text ks) ↔ ks = Layout.outline ls) ∧
    ∀ (r : EditorRequest) (s : Style),
      (r.text s = if r.type.name = [] then .error .unnamedType
        else .ok ((Layout.outline r.layout).flatMap fun l =>
          (List.replicate l.1 s.indentUnit).flatten ++ l.2 ++ s.lineEnding)) ∧
      ∀ guardSymbol, r.text { s with guardSymbol } = r.text s := by
  have htext (s : Style) (ls : List Layout) : Layout.text s ls = s.text (Layout.outline ls) := Layout.text_eq s ls
  have heditor (r : EditorRequest) (s : Style) : r.text s = if r.type.name = [] then .error .unnamedType
      else .ok (s.text (Layout.outline r.layout)) := by
    unfold EditorRequest.text
    simp only [List.isEmpty_iff, htext]
  refine ⟨Layout.isOutline_outline, fun w ls => ?_, fun ls ks => ⟨fun h => ?_, ?_⟩, fun r s => ⟨heditor r s, ?_⟩⟩
  · have hdeeper : Layout.flattenAll w.depth ls = Layout.deeper w.depth (Layout.outline ls) :=
      Layout.flattenAll_add w.depth 0 ls
    rw [Writer.run_eq, hdeeper, Writer.append]
    refine ⟨rfl, ?_⟩
    rw [Style.text, Layout.deeper, List.flatMap_map]
    rfl
  · exact Style.eq_of_text_eq fun s => (h s).symm.trans (htext s ls)
  · rintro rfl s
    exact htext s ls
  · intro guardSymbol
    rw [heditor, heditor]
    rfl

end Writer

end EditorScaffold
