import EditorScaffold.Proofs.Json.Numerals
import EditorScaffold.Proofs.Json.Strings
import Mathlib.Data.Fintype.Basic
import Mathlib.Data.List.Forall2
import Mathlib.Tactic.FinCases

/-! # Trees are read back

The text of a tree with every numeral as it is spelled (`spelled`) is read back as the tree, if its brackets are not
nested too deeply and its numerals have values (`readsTree_tree`). The items of a list and the members of an object are
read by repeated steps (`reads_items`, `reads_members`), whatever reader is used for one of them. -/

namespace EditorScaffold.Json

/-! ### Trees by their parts -/

/-- What holds of a value whenever it holds of the values inside it holds of every value. -/
theorem induction {P : Json → Prop} (null : P .null) (bool : ∀ b, P (.bool b)) (number : ∀ n, P (.number n))
    (string : ∀ t, P (.string t)) (array : ∀ items, (∀ v ∈ items, P v) → P (.array items))
    (object : ∀ members, (∀ m ∈ members, P m.2) → P (.object members)) (v : Json) : P v :=
  @Json.rec P (fun items => ∀ v ∈ items, P v) (fun members => ∀ m ∈ members, P m.2) (fun m => P m.2)
    null bool number string array object (fun _ h => nomatch h)
    (fun _ _ hv hvs => List.forall_mem_cons.2 ⟨hv, hvs⟩) (fun _ h => nomatch h)
    (fun _ _ hm hms => List.forall_mem_cons.2 ⟨hm, hms⟩) (fun _ _ hv => hv) v

mutual

/-- A tree as text, without blanks and with its numerals as they are spelled. -/
def spelled : Json → Text
  | null => "null".toList
  | bool true => "true".toList
  | bool false => "false".toList
  | number n => n.text
  | string t => stringText t
  | array items => '[' :: spelledItems items ++ [']']
  | object members => '\x7b' :: spelledMembers members ++ ['\x7d']

/-- The items of an array, with commas between them. -/
def spelledItems : List Json → Text
  | [] => []
  | [v] => spelled v
  | v :: w :: vs => spelled v ++ ',' :: spelledItems (w :: vs)

/-- The members of an object, with commas between them. -/
def spelledMembers : List (Text × Json) → Text
  | [] => []
  | [(k, v)] => stringText k ++ ':' :: spelled v
  | (k, v) :: m :: ms => stringText k ++ ':' :: spelled v ++ ',' :: spelledMembers (m :: ms)

end

mutual

/-- How many brackets are open inside each other at most. -/
def nesting : Json → Nat
  | array items => nestingItems items + 1
  | object members => nestingMembers members + 1
  | _ => 0

/-- How many brackets are open inside each other at most in the items of an array. -/
def nestingItems : List Json → Nat
  | [] => 0
  | v :: vs => max (nesting v) (nestingItems vs)

/-- How many brackets are open inside each other at most in the members of an object. -/
def nestingMembers : List (Text × Json) → Nat
  | [] => 0
  | (_, v) :: ms => max (nesting v) (nestingMembers ms)

end

mutual

/-- The numerals in a tree. -/
def numerals : Json → List Numeral
  | number n => [n]
  | array items => numeralsItems items
  | object members => numeralsMembers members
  | _ => []

/-- The numerals in the items of an array. -/
def numeralsItems : List Json → List Numeral
  | [] => []
  | v :: vs => numerals v ++ numeralsItems vs

/-- The numerals in the members of an object. -/
def numeralsMembers : List (Text × Json) → List Numeral
  | [] => []
  | (_, v) :: ms => numerals v ++ numeralsMembers ms

end

/-- Every number is within the range of a double. -/
def InRange (v : Json) : Prop := ∀ n ∈ v.numerals, n.number?.isSome

/-- Whether a value is not in brackets. -/
def isPlain : Json → Bool
  | array _ => false
  | object _ => false
  | _ => true

/-- The text of a member. -/
def spelledMember (m : Text × Json) : Text := stringText m.1 ++ ':' :: m.2.spelled

theorem spelledItems_cons (v : Json) (vs : List Json) :
    spelledItems (v :: vs) = v.spelled ++ vs.flatMap (',' :: ·.spelled) := by
  induction vs generalizing v with
  | nil => rw [List.flatMap_nil, List.append_nil, spelledItems]
  | cons w vs ih => rw [spelledItems, ih w, List.flatMap_cons, List.cons_append]

theorem spelledMembers_cons (m : Text × Json) (ms : List (Text × Json)) :
    spelledMembers (m :: ms) = spelledMember m ++ ms.flatMap (',' :: spelledMember ·) := by
  induction ms generalizing m with
  | nil => rw [List.flatMap_nil, List.append_nil, spelledMembers, spelledMember]
  | cons n ms ih =>
    rw [spelledMembers, ih n, List.flatMap_cons, List.cons_append]
    rfl

theorem nestingItems_le {items : List Json} {n : Nat} : nestingItems items ≤ n ↔ ∀ v ∈ items, v.nesting ≤ n := by
  induction items with
  | nil => simp [nestingItems]
  | cons v vs ih => rw [nestingItems, Nat.max_le, ih, List.forall_mem_cons]

theorem nestingMembers_le {members : List (Text × Json)} {n : Nat} :
    nestingMembers members ≤ n ↔ ∀ m ∈ members, m.2.nesting ≤ n := by
  induction members with
  | nil => simp [nestingMembers]
  | cons m ms ih => rw [nestingMembers, Nat.max_le, ih, List.forall_mem_cons]

/-- An array takes one of the brackets, its items the others. -/
theorem nesting_array_le {items : List Json} {n : Nat} :
    (array items).nesting ≤ n ↔ ∃ m, n = m + 1 ∧ ∀ v ∈ items, v.nesting ≤ m := by
  simp only [nesting, ← nestingItems_le]
  exact ⟨fun h => ⟨n - 1, by omega, by omega⟩, fun ⟨m, hn, hm⟩ => by omega⟩

/-- An object takes one of the brackets, its members the others. -/
theorem nesting_object_le {members : List (Text × Json)} {n : Nat} :
    (object members).nesting ≤ n ↔ ∃ m, n = m + 1 ∧ ∀ v ∈ members, v.2.nesting ≤ m := by
  simp only [nesting, ← nestingMembers_le]
  exact ⟨fun h => ⟨n - 1, by omega, by omega⟩, fun ⟨m, hn, hm⟩ => by omega⟩

theorem inRange_array {items : List Json} : (array items).InRange ↔ ∀ v ∈ items, v.InRange := by
  unfold InRange
  rw [numerals]
  induction items with
  | nil => simp [numeralsItems]
  | cons v vs ih => rw [numeralsItems, List.forall_mem_append, ih, List.forall_mem_cons]

theorem inRange_object {members : List (Text × Json)} : (object members).InRange ↔ ∀ m ∈ members, m.2.InRange := by
  unfold InRange
  rw [numerals]
  induction members with
  | nil => simp [numeralsMembers]
  | cons m ms ih => rw [numeralsMembers, List.forall_mem_append, ih, List.forall_mem_cons]

theorem inRange_number {n : Numeral} : (number n).InRange ↔ n.number?.isSome := by
  rw [InRange, numerals, List.forall_mem_singleton]

/-! ### How a value starts -/

/-- The text of a numeral without a sign starts with a digit. -/
theorem Numeral.unsigned_cons (n : Numeral) : ∃ d t, n.unsigned = digitChar d :: t := by
  obtain ⟨d, ds, hds⟩ := List.exists_cons_of_ne_nil (toDigits_ne_nil n.whole)
  exact ⟨d, _, by rw [unsigned, ofNat_eq_map, hds]; rfl⟩

theorem digitChar_start : ∀ d : Digit, Reader.isBlank (digitChar d) = false ∧ digitChar d ≠ ']' := by decide

/-- **A value starts with a character that is neither blank nor the end of a list.** -/
theorem spelled_cons (v : Json) : ∃ c t, v.spelled = c :: t ∧ Reader.isBlank c = false ∧ c ≠ ']' := by
  match v with
  | null => exact ⟨_, _, rfl, by decide, by decide⟩
  | bool true => exact ⟨_, _, rfl, by decide, by decide⟩
  | bool false => exact ⟨_, _, rfl, by decide, by decide⟩
  | number n =>
    obtain ⟨d, t, hd⟩ := n.unsigned_cons
    rw [spelled, n.text_eq, hd]
    cases n.negative
    · exact ⟨_, _, rfl, digitChar_start d⟩
    · exact ⟨_, _, rfl, by decide, by decide⟩
  | string t => exact ⟨'"', _, by rw [spelled, stringText]; rfl, by decide, by decide⟩
  | array items => exact ⟨'[', _, by rw [spelled]; rfl, by decide, by decide⟩
  | object members => exact ⟨'\x7b', _, by rw [spelled]; rfl, by decide, by decide⟩

namespace Reader

variable {α σ : Type} {s t u : Text} {a : α}

/-! ### Single values -/

theorem reads_null {f : Json → Reader α} {inside : Bracket → Reader α} (h : Reads (f .null) s a t) :
    Reads (valueOr f inside) ("null".toList ++ s) a t :=
  (reads_next? (by decide) _).bind (((reads_skip 'n' _).then (reads_literal "ull".toList s)).then h)

theorem reads_bool {b : Bool} {f : Json → Reader α} {inside : Bracket → Reader α} (h : Reads (f (.bool b)) s a t) :
    Reads (valueOr f inside) ((Json.bool b).spelled ++ s) a t := by
  cases b
  · exact (reads_next? (by decide) _).bind (((reads_skip 'f' _).then (reads_literal "alse".toList s)).then h)
  · exact (reads_next? (by decide) _).bind (((reads_skip 't' _).then (reads_literal "rue".toList s)).then h)

theorem reads_stringText {r : Text} {f : Json → Reader α} {inside : Bracket → Reader α}
    (h : Reads (f (.string r)) s a t) : Reads (valueOr f inside) (stringText r ++ s) a t := by
  have htext : stringText r ++ s = '"' :: (r.flatMap escapeChar ++ '"' :: s) := by simp [stringText]
  rw [htext]
  exact (reads_next? (by decide) _).bind ((reads_skip '"' _).bind ((reads_string r s).bind h))

theorem reads_numeralText {n : Numeral} {f : Json → Reader α} {inside : Bracket → Reader α} (hn : n.number?.isSome)
    (hs : Ended s) (h : Reads (f (.number n)) s a t) : Reads (valueOr f inside) (n.text ++ s) a t := by
  have hread := Reads.bind (f := fun m => f (.number m)) (reads_number hn hs) h
  rw [n.text_eq]
  cases hneg : n.negative with
  | true =>
    rw [hneg] at hread
    exact (reads_next? (by decide) _).bind ((reads_skip '-' _).bind hread)
  | false =>
    obtain ⟨d, t, hd⟩ := n.unsigned_cons
    rw [hneg, hd] at hread
    rw [hd]
    refine (reads_next? (digitChar_start d).1 _).bind ?_
    fin_cases d <;> exact hread

/-- **A value that is not in brackets is read as a tree.** -/
theorem reads_plain {v : Json} {f : Json → Reader α} {inside : Bracket → Reader α} (hv : v.isPlain)
    (hr : v.InRange) (hs : Ended s) (h : Reads (f v) s a t) : Reads (valueOr f inside) (v.spelled ++ s) a t := by
  match v, hv with
  | .null, _ => exact reads_null h
  | .bool _, _ => exact reads_bool h
  | .number n, _ => exact reads_numeralText (inRange_number.1 hr) hs h
  | .string r, _ => exact reads_stringText h

theorem reads_bracket (b : Bracket) {f : Json → Reader α} {inside : Bracket → Reader α}
    (h : Reads (inside b) (b.opening :: s) a t) : Reads (valueOr f inside) (b.opening :: s) a t := by
  cases b <;> exact (reads_next? (by decide) s).bind h

/-! ### Items and members -/

/-- **The reader reads the tree** as `a`, whatever comes after it. -/
def ReadsTree (r : Reader α) (v : Json) (a : α) : Prop := ∀ s, Ended s → Reads r (v.spelled ++ s) a s

theorem reads_nextItem_value (v : Json) (s : Text) :
    Reads (nextItem true) (v.spelled ++ s) true (v.spelled ++ s) ∧
    Reads (nextItem false) (',' :: (v.spelled ++ s)) true (v.spelled ++ s) := by
  obtain ⟨c, t, hv, hblank, hc⟩ := v.spelled_cons
  rw [hv]
  exact ⟨reads_nextItem_first hblank hc _, reads_nextItem_comma hblank hc _⟩

theorem length_lt_spelled (v : Json) (s : Text) : s.length < (v.spelled ++ s).length := by
  obtain ⟨c, t, hv, -⟩ := v.spelled_cons
  rw [hv, List.length_append, List.length_cons]
  omega

theorem ended_items (vs : List Json) (s : Text) : Ended (vs.flatMap (',' :: ·.spelled) ++ ']' :: s) := by
  cases vs with
  | nil => exact ended_closing .list s
  | cons v vs =>
    rw [List.flatMap_cons, List.append_assoc]
    exact ended_comma _

/-- The rest of a list is read item by item. -/
theorem loops_items {item : Reader α} {first : List α → Bool} {vs : List Json} {as : List α}
    (h : List.Forall₂ (ReadsTree item) vs as) (hcons : ∀ a read, first (a :: read) = false) {read : List α}
    (hfirst : first read = false) (s : Text) :
    Loops (fun (read : List α) => do
      if ← nextItem (first read) then return .inl ((← item) :: read)
      else return .inr read.reverse) read
      (vs.flatMap (',' :: ·.spelled) ++ ']' :: s) (read.reverse ++ as) (']' :: s) := by
  induction h generalizing read with
  | nil =>
    rw [List.append_nil]
    exact .stop ((reads_nextItem_end _ s).bind (.pure _ _))
  | @cons v a vs as hv _ ih =>
    have hlist : read.reverse ++ a :: as = (a :: read).reverse ++ as := by simp
    have hnext := (reads_nextItem_value v (vs.flatMap (',' :: ·.spelled) ++ ']' :: s)).2
    rw [← hfirst] at hnext
    rw [List.flatMap_cons, List.append_assoc, hlist]
    refine .next (hnext.bind ((hv _ (ended_items vs s)).bind (.pure _ _))) ?_ (ih (hcons a read))
    exact (length_lt_spelled v _).trans (Nat.lt_succ_self _)

/-- **A list is read item by item.** -/
theorem reads_items {item : Reader α} {vs : List Json} {as : List α} (h : List.Forall₂ (ReadsTree item) vs as)
    (s : Text) : Reads (items item) (spelledItems vs ++ ']' :: s) as (']' :: s) := by
  refine Loops.reads ?_
  cases h with
  | nil => exact .stop ((reads_nextItem_end _ s).bind (.pure _ _))
  | @cons v a vs as hv h =>
    have hnext := (reads_nextItem_value v (vs.flatMap (',' :: ·.spelled) ++ ']' :: s)).1
    rw [spelledItems_cons, List.append_assoc]
    refine .next (hnext.bind ((hv _ (ended_items vs s)).bind (.pure _ _))) (length_lt_spelled v _) ?_
    exact loops_items h (fun _ _ => rfl) rfl s

/-- **Members are taken up one after the other**: the state after each is the one before the next. -/
inductive Takes (member : σ → Text → Reader σ) : σ → List (Text × Json) → σ → Prop
  | nil x : Takes member x [] x
  | cons {x y z : σ} {m : Text × Json} {ms : List (Text × Json)} :
    (∀ s, Ended s → Reads (member x m.1) (':' :: (m.2.spelled ++ s)) y s) → Takes member y ms z →
      Takes member x (m :: ms) z

theorem ended_members (ms : List (Text × Json)) (s : Text) :
    Ended (ms.flatMap (',' :: spelledMember ·) ++ '}' :: s) := by
  cases ms with
  | nil => exact ended_closing .object s
  | cons m ms =>
    rw [List.flatMap_cons, List.append_assoc]
    exact ended_comma _

theorem spelledMember_append (m : Text × Json) (s : Text) :
    spelledMember m ++ s = '"' :: (m.1.flatMap escapeChar ++ '"' :: ':' :: (m.2.spelled ++ s)) := by
  simp [spelledMember, stringText]

theorem length_lt_spelledMember (m : Text × Json) (s : Text) : s.length < (spelledMember m ++ s).length := by
  rw [spelledMember_append, List.length_cons, List.length_append, List.length_cons, List.length_cons,
    List.length_append]
  omega

/-- The rest of an object is read member by member. -/
theorem loops_members {member : σ → Text → Reader σ} {x z : σ} {ms : List (Text × Json)} (h : Takes member x ms z)
    (s : Text) :
    Loops (fun (s, first) => do
      if ← nextMember first then
        let key ← string
        return .inl ((← member s key), false)
      else return .inr s) (x, false)
      (ms.flatMap (',' :: spelledMember ·) ++ '}' :: s) z ('}' :: s) := by
  induction h with
  | nil x => exact .stop ((reads_nextMember_end _ s).bind (.pure _ _))
  | @cons x y z m ms hm _ ih =>
    rw [List.flatMap_cons, List.append_assoc]
    refine .next (t := ms.flatMap (',' :: spelledMember ·) ++ '}' :: s) ?_ ?_ ih
    · show Reads _ (',' :: (spelledMember m ++ _)) _ _
      rw [spelledMember_append]
      exact (reads_nextMember_comma _).bind ((reads_string m.1 _).bind ((hm _ (ended_members ms s)).bind (.pure _ _)))
    · exact (length_lt_spelledMember m _).trans (Nat.lt_succ_self _)

/-- **An object is read member by member.** -/
theorem reads_members {member : σ → Text → Reader σ} {x z : σ} {ms : List (Text × Json)} (h : Takes member x ms z)
    (s : Text) : Reads (members member x) (spelledMembers ms ++ '}' :: s) z ('}' :: s) := by
  refine Loops.reads ?_
  cases h with
  | nil => exact .stop ((reads_nextMember_end _ s).bind (.pure _ _))
  | @cons x y z m ms hm h =>
    rw [spelledMembers_cons, List.append_assoc]
    refine .next ?_ (length_lt_spelledMember m _) (loops_members h s)
    rw [spelledMember_append]
    exact (reads_nextMember_first _).bind ((reads_string m.1 _).bind ((hm _ (ended_members ms s)).bind (.pure _ _)))

/-! ### Whole trees -/

theorem spelled_array_append (items : List Json) (s : Text) :
    (Json.array items).spelled ++ s = Bracket.list.opening :: (spelledItems items ++ Bracket.list.closing :: s) := by
  simp [spelled, Bracket.opening, Bracket.closing]

theorem spelled_object_append (ms : List (Text × Json)) (s : Text) :
    (Json.object ms).spelled ++ s = Bracket.object.opening :: (spelledMembers ms ++ Bracket.object.closing :: s) := by
  simp [spelled, Bracket.opening, Bracket.closing]

/-- The members of an object are gathered in reverse. -/
theorem takes_tree {levels : Nat} {ms : List (Text × Json)} (h : ∀ m ∈ ms, ReadsTree (tree levels) m.2 m.2)
    (read : List (Text × Json)) :
    Takes (fun (ms : List (Text × Json)) key => do
      colon
      return (key, ← tree levels) :: ms) read ms (ms.reverse ++ read) := by
  induction ms generalizing read with
  | nil => exact .nil read
  | cons m ms ih =>
    obtain ⟨hm, hms⟩ := List.forall_mem_cons.1 h
    rw [List.reverse_cons, List.append_assoc]
    exact .cons (fun s hs => (reads_colon _).bind ((hm s hs).bind (.pure _ s))) (ih hms (m :: read))

/-- **A tree is read back from its text**, if it is not nested too deeply and its numbers are in range. -/
theorem readsTree_tree (v : Json) {levels : Nat} (hn : v.nesting ≤ levels) (hr : v.InRange) :
    ReadsTree (tree levels) v v := by
  have hplain (v : Json) (levels : Nat) (hv : v.isPlain) (hr : v.InRange) : ReadsTree (tree levels) v v := by
    intro s hs
    cases levels <;> exact reads_plain hv hr hs (.pure v s)
  induction v using Json.induction generalizing levels with
  | null => exact hplain .null levels rfl hr
  | bool b => exact hplain (.bool b) levels rfl hr
  | number n => exact hplain (.number n) levels rfl hr
  | string t => exact hplain (.string t) levels rfl hr
  | array items ih =>
    obtain ⟨levels, rfl, hitem⟩ := nesting_array_le.1 hn
    have hitems : List.Forall₂ (ReadsTree (tree levels)) items items :=
      List.forall₂_same.2 fun v hv => ih v hv (hitem v hv) (inRange_array.1 hr v hv)
    intro s _
    rw [spelled_array_append]
    exact reads_bracket .list ((reads_skip _ _).then ((reads_items hitems s).map Json.array).closing)
  | object ms ih =>
    obtain ⟨levels, rfl, hmember⟩ := nesting_object_le.1 hn
    have htakes := takes_tree (fun m hm => ih m hm (hmember m hm) (inRange_object.1 hr m hm)) []
    intro s _
    have hback : Json.object (ms.reverse ++ []).reverse = .object ms := by rw [List.append_nil, List.reverse_reverse]
    have hmembers := Reads.bind (f := fun ms => pure (Json.object ms.reverse)) (reads_members htakes s) (.pure _ _)
    rw [spelled_object_append, ← hback]
    exact reads_bracket .object ((reads_skip _ _).then hmembers.closing)

end Reader

end EditorScaffold.Json
