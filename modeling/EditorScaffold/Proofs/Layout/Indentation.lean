import EditorScaffold.Proofs.Layout.Nesting
import EditorScaffold.Proofs.Text.Statement

/-! # Indentation and white space

In a style that indents with blanks, the indentation of a line is white space before what the line says, and changes
neither that (`dropWhile_written`) nor how many braces are open (`balance_written`). So lines that are nested by
their depths are nested as they are written: the indentation can be told from the braces before it
(`depth_of_nested`). -/

namespace EditorScaffold

open Text

/-! ### White space -/

namespace Text

/-- Whether a character is white space. -/
def isWhite (c : Char) : Bool :=
  (9 ≤ c.toNat && c.toNat ≤ 13) || (0x2000 ≤ c.toNat && c.toNat ≤ 0x200a) ||
    c.toNat ∈ [0x20, 0x85, 0xa0, 0x1680, 0x2028, 0x2029, 0x202f, 0x205f, 0x3000]

theorem isWhite_of_isBlank {c : Char} (h : isBlank c = true) : isWhite c = true := by
  rcases Bool.or_eq_true_iff.1 h with h | h <;> rw [beq_iff_eq] at h <;> subst h <;> decide

theorem dropWhile_isWhite_eq_close {t : Text} (h : Layout.BraceOrUnbraced t) :
    t.dropWhile isWhite = ['\x7d'] ↔ t = ['\x7d'] := by
  rcases h with rfl | rfl | h
  · decide
  · decide
  · refine iff_of_false (fun heq => h.2 ?_) h.ne_close
    have hmem : '\x7d' ∈ t.dropWhile isWhite := by
      rw [heq]
      exact List.mem_cons_self
    exact (List.dropWhile_sublist isWhite).mem hmem

end Text

/-! ### Lines after their indentation -/

namespace Style

variable {s : Style}

/-- A line after its indentation. -/
def written (s : Style) (l : Nat × Text) : Text := s.indentation l.1 ++ l.2

theorem text_eq_flatMap (s : Style) (ls : List (Nat × Text)) :
    s.text ls = (ls.map s.written).flatMap (· ++ s.lineEnding) := by
  rw [List.flatMap_map]
  rfl

variable (hunit : ∀ c ∈ s.indentUnit, isBlank c = true)
include hunit

theorem isWhite_of_mem_indentation (depth : Nat) : ∀ c ∈ s.indentation depth, isWhite c = true :=
  forall_mem_indentation (fun c hc => isWhite_of_isBlank (hunit c hc)) depth

theorem takeWhile_written (l : Nat × Text) :
    (s.written l).takeWhile isWhite = s.indentation l.1 ++ l.2.takeWhile isWhite :=
  List.takeWhile_append_of_pos (isWhite_of_mem_indentation hunit l.1)

theorem dropWhile_written (l : Nat × Text) : (s.written l).dropWhile isWhite = l.2.dropWhile isWhite :=
  List.dropWhile_append_of_pos (isWhite_of_mem_indentation hunit l.1)

theorem unbraced_indentation (depth : Nat) : Unbraced (s.indentation depth) := by
  have hblank := forall_mem_indentation hunit depth
  exact ⟨fun hmem => absurd (hblank _ hmem) (by decide), fun hmem => absurd (hblank _ hmem) (by decide)⟩

theorem balance_written (ls : List (Nat × Text)) :
    balance (ls.map s.written).flatten = balance (Layout.joined ls) := by
  induction ls with
  | nil => rfl
  | cons l ls ih =>
    rw [List.map_cons, List.flatten_cons, balance_append, ih, written, balance_append,
      balance_eq_zero (unbraced_indentation hunit l.1), Int.zero_add, Layout.joined, Layout.joined, List.flatMap_cons,
      balance_append]

/-- **Nested lines are indented as deep as braces are open before them**, and one less deep if they close one. -/
theorem depth_of_nested {ls : List (Nat × Text)} (hnested : Layout.NestedFrom 0 ls)
    (halone : ∀ l ∈ ls, Layout.BraceOrUnbraced l.2) {above below : List Text} {l : Text}
    (h : ls.map s.written = above ++ l :: below) :
    ∃ p ∈ ls, l = s.written p ∧
      (p.1 : Int) = balance above.flatten - (if l.dropWhile isWhite = ['\x7d'] then 1 else 0) := by
  obtain ⟨ks, ms, rfl, rfl, hms⟩ := List.map_eq_append_iff.1 h
  obtain ⟨p, ms, rfl, rfl, -⟩ := List.map_eq_cons_iff.1 hms
  have hmem : p ∈ ks ++ p :: ms := List.mem_append_right _ List.mem_cons_self
  obtain ⟨hdepth, -⟩ := (Layout.nestedFrom_append.1 hnested).2
  refine ⟨p, hmem, rfl, ?_⟩
  rw [hdepth, Int.zero_add, balance_written hunit, dropWhile_written hunit]
  simp only [dropWhile_isWhite_eq_close (halone p hmem)]

end Style

end EditorScaffold
