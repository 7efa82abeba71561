import EditorScaffold.FieldType
import EditorScaffold.Proofs.Text.LineStart

/-! # Field types are told by their texts

A type shows as a word, as an array of something, or as a name with arguments in angle brackets, and the last character
of its text tells which of these it is (`lastMark_display`). The text is closed: its angle brackets match, and no comma
stands outside them (`closes_display`). So the arguments inside a pair of brackets are told apart by the commas between
them (`Closes.append_inj`), and two types with proper names have the same text if and only if they differ in nothing but
the kinds of their leaves (`display_eq_display_iff_alike`). -/

namespace EditorScaffold.FieldType

variable {s t e : FieldType} {xs ys : List FieldType} {n m u v x y : Text} {d k : ℕ}

/-! ### Names -/

/-- The characters that the text of a type puts around names. -/
def marks : List Char := ['<', '>', '[', ']', ',']

/-- **A proper name** is not empty, and has no mark in it. -/
structure IsName (n : Text) : Prop where
  ne_nil : n ≠ []
  notMem : ∀ c ∈ n, c ∉ marks

theorem isName_iff : IsName n ↔ n ≠ [] ∧ n.all (· ∉ marks) = true := by
  rw [List.all_eq_true]
  exact ⟨fun h => ⟨h.ne_nil, fun c hc => decide_eq_true (h.notMem c hc)⟩,
    fun h => ⟨h.1, fun c hc => of_decide_eq_true (h.2 c hc)⟩⟩

instance (n : Text) : Decidable (IsName n) := decidable_of_iff' _ isName_iff

/-- The word that the text type shows as. -/
def textWord : Text := "string".toList

/-- The name that a list shows with. -/
def listWord : Text := "List".toList

theorem isName_textWord : IsName textWord := by decide

theorem isName_listWord : IsName listWord := by decide

mutual

/-- **All names in a type are proper.** Besides, no leaf is named like the text type, and no generic type with one
argument like a list. -/
def WellNamed : FieldType → Prop
  | leaf _ n => IsName n ∧ n ≠ textWord
  | text => True
  | container _ e => WellNamed e
  | generic n xs => IsName n ∧ ¬ (n = listWord ∧ xs.length = 1) ∧ AllWellNamed xs

/-- All names in a list of types are proper. -/
def AllWellNamed : List FieldType → Prop
  | [] => True
  | t :: ts => WellNamed t ∧ AllWellNamed ts

end

/-! ### Types that differ in the kinds of their leaves -/

mutual

/-- **Two types differ in nothing but the kinds of their leaves.** -/
def Alike : FieldType → FieldType → Prop
  | leaf _ n, leaf _ m => n = m
  | text, text => True
  | container c e, container d f => c = d ∧ Alike e f
  | generic n xs, generic m ys => n = m ∧ AllAlike xs ys
  | _, _ => False

/-- Two lists of types differ in nothing but the kinds of leaves. -/
def AllAlike : List FieldType → List FieldType → Prop
  | [], [] => True
  | s :: ss, t :: ts => Alike s t ∧ AllAlike ss ts
  | _, _ => False

end

mutual

/-- The kinds of leaves do not show. -/
theorem Alike.display_eq : ∀ {s t : FieldType}, Alike s t → s.display = t.display
  | leaf _ _, leaf _ _, h => h
  | text, text, _ => rfl
  | container .array _, container .array _, h => congrArg (· ++ "[]".toList) (Alike.display_eq h.2)
  | container .list _, container .list _, h => congrArg (listWord ++ '<' :: · ++ ['>']) (Alike.display_eq h.2)
  | generic _ _, generic _ _, ⟨rfl, h⟩ => congrArg (_ ++ '<' :: · ++ ['>']) (AllAlike.displayArgs_eq h)

theorem AllAlike.displayArgs_eq : ∀ {xs ys : List FieldType}, AllAlike xs ys → displayArgs xs = displayArgs ys
  | [], [], _ => rfl
  | [_], [_], h => Alike.display_eq h.1
  | _ :: _ :: _, _ :: _ :: _, h =>
    congrArg₂ (· ++ ", ".toList ++ ·) (Alike.display_eq h.1) (AllAlike.displayArgs_eq h.2)

end

/-! ### The last mark -/

/-- The mark that a text ends in. -/
def lastMark (u : Text) : Option Char := u.getLast?.filter (· ∈ marks)

/-- The mark that the text of a type ends in. -/
def ending : FieldType → Option Char
  | container .array _ => some ']'
  | container .list _ => some '>'
  | generic _ _ => some '>'
  | _ => none

theorem IsName.lastMark_eq (hn : IsName n) : lastMark n = none :=
  Option.filter_eq_none_iff.2 fun c hc => by simpa using hn.notMem c (List.mem_of_getLast? hc)

theorem lastMark_concat (u : Text) {c : Char} (hc : c ∈ marks) : lastMark (u ++ [c]) = some c := by
  rw [lastMark, List.getLast?_concat]
  exact if_pos (decide_eq_true hc)

/-- **The last mark tells the form of a type.** -/
theorem lastMark_display (ht : t.WellNamed) : lastMark t.display = t.ending := by
  match t, ht with
  | leaf _ _, ht => exact ht.1.lastMark_eq
  | text, _ => exact isName_textWord.lastMark_eq
  | container .array e, _ =>
    change lastMark (e.display ++ (['['] ++ [']'])) = _
    rw [← List.append_assoc]
    exact lastMark_concat _ (by decide)
  | container .list _, _ => exact lastMark_concat _ (by decide)
  | generic _ _, _ => exact lastMark_concat _ (by decide)

/-! ### Closed texts -/

/-- How many brackets are open after a character, if `d` are open before it. No bracket is closed that is not open, and
there is no comma where no bracket is open. -/
def turn (d : ℕ) (c : Char) : Option ℕ :=
  if c = '<' then some (d + 1)
  else if c = '>' then if d = 0 then none else some (d - 1)
  else if c = ',' then if d = 0 then none else some d
  else some d

/-- **A text closes `d` brackets** and those that it opens, and no comma stands outside them. -/
def Closes : ℕ → Text → Prop
  | d, [] => d = 0
  | d, c :: u => ∃ k, turn d c = some k ∧ Closes k u

theorem turn_add {c : Char} (h : turn d c = some k) (m : ℕ) : turn (d + m) c = some (k + m) := by
  grind [turn]

theorem turn_of_notMem {c : Char} (hc : c ∉ marks) (d : ℕ) : turn d c = some d := by
  simp only [marks, List.mem_cons, List.not_mem_nil, not_or] at hc
  rw [turn, if_neg hc.1, if_neg hc.2.1, if_neg hc.2.2.2.2.1]

theorem Closes.append (hu : Closes d u) (hv : Closes k v) : Closes (d + k) (u ++ v) := by
  induction u generalizing d with
  | nil =>
    obtain rfl : d = 0 := hu
    rwa [Nat.zero_add]
  | cons c u ih =>
    obtain ⟨e, hturn, hu⟩ := hu
    exact ⟨e + k, turn_add hturn k, ih hu⟩

/-- **Closed texts are told apart** from what follows them, if this is nothing or starts with a comma. -/
theorem Closes.append_inj (hu : Closes d u) (hv : Closes d v) (hx : ∀ c ∈ x.head?, c = ',')
    (hy : ∀ c ∈ y.head?, c = ',') (h : u ++ x = v ++ y) : u = v ∧ x = y := by
  induction u generalizing d v with
  | nil =>
    obtain rfl : d = 0 := hu
    cases v with
    | nil => exact ⟨rfl, h⟩
    | cons c v =>
      obtain ⟨k, hturn, -⟩ := hv
      obtain rfl := hx c (by rw [← List.nil_append x, h]; rfl)
      cases hturn
  | cons c u ih =>
    obtain ⟨k, hturn, hu⟩ := hu
    cases v with
    | nil =>
      obtain rfl : d = 0 := hv
      obtain rfl := hy c (by rw [← List.nil_append y, ← h]; rfl)
      cases hturn
    | cons b v =>
      obtain ⟨rfl, htail⟩ := List.cons.inj h
      obtain ⟨l, hturn', hv⟩ := hv
      obtain rfl : k = l := Option.some.inj (hturn.symm.trans hturn')
      obtain ⟨rfl, hxy⟩ := ih hu hv htail
      exact ⟨rfl, hxy⟩

theorem closes_zero_of_notMem (h : ∀ c ∈ u, c ∉ marks) : Closes 0 u := by
  induction u with
  | nil => rfl
  | cons c u ih =>
    exact ⟨0, turn_of_notMem (h c List.mem_cons_self) 0, ih fun b hb => h b (List.mem_cons_of_mem c hb)⟩

theorem closes_close : Closes 1 ['>'] := ⟨0, rfl, rfl⟩

/-- A name with arguments in angle brackets is closed. -/
theorem IsName.closes_angled (hn : IsName n) (hu : Closes 1 (u ++ ['>'])) : Closes 0 (n ++ '<' :: u ++ ['>']) := by
  rw [List.append_assoc]
  exact (closes_zero_of_notMem hn.notMem).append (k := 0) ⟨1, rfl, hu⟩

mutual

/-- **The text of a type is closed.** -/
theorem closes_display : ∀ t : FieldType, t.WellNamed → Closes 0 t.display
  | leaf _ _, ht => closes_zero_of_notMem ht.1.notMem
  | text, _ => closes_zero_of_notMem isName_textWord.notMem
  | container .array e, ht => (closes_display e ht).append (k := 0) ⟨0, rfl, 0, rfl, rfl⟩
  | container .list e, ht => isName_listWord.closes_angled ((closes_display e ht).append closes_close)
  | generic _ xs, ht => ht.1.closes_angled (closes_displayArgs xs ht.2.2)

/-- The texts of arguments are closed by a bracket after them. -/
theorem closes_displayArgs : ∀ ts : List FieldType, AllWellNamed ts → Closes 1 (displayArgs ts ++ ['>'])
  | [], _ => closes_close
  | [t], ht => (closes_display t ht.1).append closes_close
  | t :: u :: ts, ht => by
    change Closes 1 (t.display ++ ", ".toList ++ displayArgs (u :: ts) ++ ['>'])
    rw [List.append_assoc, List.append_assoc]
    exact (closes_display t ht.1).append (k := 1) ⟨1, rfl, 1, rfl, closes_displayArgs (u :: ts) ht.2⟩

end

/-! ### Arguments -/

/-- The texts of the arguments after the first one. -/
def displayMore : List FieldType → Text
  | [] => []
  | ts => ", ".toList ++ displayArgs ts

theorem displayArgs_cons (t : FieldType) (ts : List FieldType) :
    displayArgs (t :: ts) = t.display ++ displayMore ts := by
  cases ts with
  | nil => exact (List.append_nil _).symm
  | cons u ts => exact List.append_assoc _ _ _

theorem head?_displayMore (ts : List FieldType) : ∀ c ∈ (displayMore ts).head?, c = ',' := by
  cases ts with
  | nil => nofun
  | cons t ts => rintro c ⟨⟩; rfl

theorem displayMore_inj (h : displayMore xs = displayMore ys) : displayArgs xs = displayArgs ys := by
  cases xs with
  | nil =>
    cases ys with
    | nil => rfl
    | cons y ys => cases h
  | cons x xs =>
    cases ys with
    | nil => cases h
    | cons y ys => exact List.append_cancel_left h

theorem display_ne_nil (ht : t.WellNamed) : t.display ≠ [] := by
  match t, ht with
  | leaf _ _, ht => exact ht.1.ne_nil
  | text, _ => exact isName_textWord.ne_nil
  | container .array e, _ => exact List.append_ne_nil_of_right_ne_nil e.display (List.cons_ne_nil _ _)
  | container .list _, _ => exact List.cons_ne_nil _ _
  | generic _ _, _ => exact List.append_ne_nil_of_right_ne_nil _ (List.cons_ne_nil _ _)

theorem displayArgs_cons_ne_nil (ht : t.WellNamed) (ts : List FieldType) : displayArgs (t :: ts) ≠ [] := by
  rw [displayArgs_cons]
  exact List.append_ne_nil_of_left_ne_nil (display_ne_nil ht) _

/-- **The first argument is told from the others.** -/
theorem displayArgs_cons_inj (hs : s.WellNamed) (ht : t.WellNamed)
    (h : displayArgs (s :: xs) = displayArgs (t :: ys)) :
    s.display = t.display ∧ displayMore xs = displayMore ys := by
  rw [displayArgs_cons, displayArgs_cons] at h
  exact (closes_display s hs).append_inj (closes_display t ht) (head?_displayMore xs) (head?_displayMore ys) h

/-- Arguments that show as one type are one argument. -/
theorem length_eq_one_of_displayArgs_eq (hxs : AllWellNamed xs) (ht : t.WellNamed) (h : displayArgs xs = t.display) :
    xs.length = 1 := by
  match xs, hxs, h with
  | [], _, h => exact absurd h.symm (display_ne_nil ht)
  | [_], _, _ => rfl
  | x :: y :: xs, hxs, h =>
    have hone : displayArgs (x :: y :: xs) = displayArgs [t] := h
    cases (displayArgs_cons_inj hxs.1 ht hone).2

/-! ### Types -/

/-- **A name is told from its arguments.** -/
theorem angled_inj (hn : IsName n) (hm : IsName m) (h : n ++ '<' :: u ++ ['>'] = m ++ '<' :: v ++ ['>']) :
    n = m ∧ u = v := by
  have hopen : ∀ {w : Text}, IsName w → '<' ∉ w := fun hw hmem => hw.notMem _ hmem (by decide)
  exact Text.eq_of_append_cons_eq (hopen hn) (hopen hm) (List.append_cancel_right h)

/-- No other type shows as a list. -/
theorem display_list_ne_generic (he : (container .list e).WellNamed) (ht : (generic n xs).WellNamed) :
    (container .list e).display ≠ (generic n xs).display := by
  intro h
  obtain ⟨rfl, hargs⟩ := angled_inj isName_listWord ht.1 h
  exact ht.2.1 ⟨rfl, length_eq_one_of_displayArgs_eq (t := e) ht.2.2 he hargs.symm⟩

mutual

theorem alike_of_display_eq (s t : FieldType) (hs : s.WellNamed) (ht : t.WellNamed) (h : s.display = t.display) :
    s.Alike t := by
  -- types of another form end in another mark
  have hend : s.ending = t.ending := by rw [← lastMark_display hs, ← lastMark_display ht, h]
  match s, t, hend with
  | leaf _ _, leaf _ _, _ => exact h
  | leaf _ _, text, _ => exact hs.2 h
  | text, leaf _ _, _ => exact ht.2 h.symm
  | text, text, _ => trivial
  | container .array e, container .array f, _ =>
    exact ⟨rfl, alike_of_display_eq e f hs ht (List.append_cancel_right h)⟩
  | container .list e, container .list f, _ =>
    exact ⟨rfl, alike_of_display_eq e f hs ht (angled_inj isName_listWord isName_listWord h).2⟩
  | container .list _, generic _ _, _ => exact display_list_ne_generic hs ht h
  | generic _ _, container .list _, _ => exact display_list_ne_generic ht hs h.symm
  | generic _ xs, generic _ ys, _ =>
    obtain ⟨hname, hargs⟩ := angled_inj hs.1 ht.1 h
    exact ⟨hname, allAlike_of_displayArgs_eq xs ys hs.2.2 ht.2.2 hargs⟩

theorem allAlike_of_displayArgs_eq (xs ys : List FieldType) (hxs : AllWellNamed xs) (hys : AllWellNamed ys)
    (h : displayArgs xs = displayArgs ys) : AllAlike xs ys := by
  match xs, ys with
  | [], [] => trivial
  | [], y :: ys => exact displayArgs_cons_ne_nil hys.1 ys h.symm
  | x :: xs, [] => exact displayArgs_cons_ne_nil hxs.1 xs h
  | x :: xs, y :: ys =>
    obtain ⟨hfirst, hmore⟩ := displayArgs_cons_inj hxs.1 hys.1 h
    exact ⟨alike_of_display_eq x y hxs.1 hys.1 hfirst,
      allAlike_of_displayArgs_eq xs ys hxs.2 hys.2 (displayMore_inj hmore)⟩

end

/-- **The text of a type can be read in one way only**: types with proper names have the same text if and only if they
differ in nothing but the kinds of their leaves. -/
theorem display_eq_display_iff_alike (hs : s.WellNamed) (ht : t.WellNamed) : s.display = t.display ↔ s.Alike t :=
  ⟨alike_of_display_eq s t hs ht, Alike.display_eq⟩

/-- A map from texts to lists of arrays of crates. -/
def crates (k : LeafKind) : FieldType :=
  .generic "Map".toList [.text, .container .list (.container .array (.leaf k "Crate".toList))]

/-- The kind of the crates does not show, and all else does. -/
theorem crates_alike :
    (crates .object).WellNamed ∧ (crates .value).WellNamed ∧
    (crates .object).display = "Map<string, List<Crate[]>>".toList ∧ (crates .object).Alike (crates .value) := by
  have hnamed : ∀ k, (crates k).WellNamed := fun k =>
    ⟨(by decide : IsName "Map".toList), fun h => absurd h.1 (by decide), trivial,
      ⟨(by decide : IsName "Crate".toList), by decide⟩, trivial⟩
  exact ⟨hnamed _, hnamed _, rfl, (display_eq_display_iff_alike (hnamed _) (hnamed _)).1 rfl⟩

-- a generic type that is named like a list has the text of a list
example : (generic listWord [text]).display = (container .list text).display := rfl

end EditorScaffold.FieldType
