import EditorScaffold.Proofs.Text.Word
import EditorScaffold.Text.Lines
import Mathlib.Data.List.Basic

/-! # Reading lines

What a line says is read without the blanks that indent it and without a return at its end (`statement`). A
statement is read by what it starts and ends with (`between?`), or by its first word and what follows
(`cutWord`). -/

namespace EditorScaffold.Text

/-! ### Statements -/

/-- Whether a character is a blank of an indentation. -/
def isBlank (c : Char) : Bool := c == ' ' || c == '\t'

/-- The text without the blanks before it. -/
def trimStart (t : Text) : Text := t.dropWhile isBlank

/-- The text without a return at its end. -/
def dropReturn (t : Text) : Text := if t.getLast? = some '\r' then t.dropLast else t

/-- What a line says. -/
def statement (l : Text) : Text := trimStart (dropReturn l)

/-- What the lines of a text say. -/
def statements (t : Text) : List Text := t.lines.map statement

theorem dropReturn_concat (t : Text) : dropReturn (t ++ ['\r']) = t := by
  rw [dropReturn, if_pos (by simp), List.dropLast_concat]

theorem dropReturn_of_notMem {t : Text} (h : '\r' ∉ t) : dropReturn t = t := by
  rw [dropReturn, if_neg fun hlast => h (List.mem_of_getLast? hlast)]

theorem trimStart_append {s : Text} (h : ∀ c ∈ s, isBlank c = true) (t : Text) :
    trimStart (s ++ t) = trimStart t :=
  List.dropWhile_append_of_pos h

/-- No word starts with a blank. -/
theorem trimStart_word {w : Text} (hw : ∀ c ∈ w, isWord c = true) (hne : w ≠ []) (t : Text) :
    trimStart (w ++ t) = w ++ t := by
  obtain ⟨c, w, rfl⟩ := List.exists_cons_of_ne_nil hne
  refine List.dropWhile_cons_of_neg fun hc => ?_
  have hword := hw c List.mem_cons_self
  rcases Bool.or_eq_true_iff.1 hc with h | h <;> rw [beq_iff_eq] at h <;> subst h <;> exact absurd hword (by decide)

/-! ### Parts of a statement -/

/-- The part of a text between a start and an end, if it has them. -/
def between? (start stop t : Text) : Option Text := (t.dropPrefix? start).bind (·.dropSuffix? stop)

theorem between?_eq_some_iff {start stop t x : Text} :
    between? start stop t = some x ↔ t = start ++ x ++ stop := by
  simp only [between?, Option.bind_eq_some_iff, List.dropPrefix?_eq_some_iff, List.dropSuffix?_eq_some_iff,
    beq_iff_eq]
  constructor
  · rintro ⟨_, ⟨_, rfl, rfl⟩, _, rfl, rfl⟩
    rw [List.append_assoc]
  · rintro rfl
    exact ⟨x ++ stop, ⟨start, List.append_assoc start x stop, rfl⟩, stop, rfl, rfl⟩

/-- The first word of a text, and what follows it after blanks. -/
def cutWord (t : Text) : Text × Text := (t.takeWhile isWord, trimStart (t.dropWhile isWord))

theorem takeWhile_word {w : Text} (hw : ∀ c ∈ w, isWord c = true) {c : Char} (hc : isWord c = false)
    (t : Text) : (w ++ c :: t).takeWhile isWord = w := by
  rw [List.takeWhile_append_of_pos hw, List.takeWhile_cons_of_neg (by rw [hc]; exact Bool.false_ne_true),
    List.append_nil]

theorem dropWhile_word {w : Text} (hw : ∀ c ∈ w, isWord c = true) {c : Char} (hc : isWord c = false)
    (t : Text) : (w ++ c :: t).dropWhile isWord = c :: t := by
  rw [List.dropWhile_append_of_pos hw, List.dropWhile_cons_of_neg (by rw [hc]; exact Bool.false_ne_true)]

theorem cutWord_append {w : Text} (hw : ∀ c ∈ w, isWord c = true) {c : Char} (hc : isWord c = false)
    (t : Text) : cutWord (w ++ c :: t) = (w, trimStart (c :: t)) := by
  rw [cutWord, takeWhile_word hw hc, dropWhile_word hw hc]

/-- **Words before a mark are told apart** from what follows. -/
theorem word_append_inj {v w : Text} (hv : ∀ c ∈ v, isWord c = true) (hw : ∀ c ∈ w, isWord c = true)
    {c d : Char} (hc : isWord c = false) (hd : isWord d = false) {s t : Text} (h : v ++ c :: s = w ++ d :: t) :
    v = w ∧ c :: s = d :: t := by
  have htake := congrArg (List.takeWhile isWord) h
  have hdrop := congrArg (List.dropWhile isWord) h
  rw [takeWhile_word hv hc, takeWhile_word hw hd] at htake
  rw [dropWhile_word hv hc, dropWhile_word hw hd] at hdrop
  exact ⟨htake, hdrop⟩

end EditorScaffold.Text
