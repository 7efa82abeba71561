import EditorScaffold.Proofs.Json.Skipping

/-! # Records are read from every spelling

A record is spelled by an object or by an array, with parts that are defaults left out or not (`Spelling.Node`). Which
spelling was chosen makes no difference to what is read (`readsTree_record`). -/

namespace EditorScaffold.Json

variable {π α : Type}

/-- How the parts of a record are spelled. -/
structure Spelling (π : Type) where
  /-- The key that a part belongs to. -/
  label : π → Text
  /-- The trees that spell a part. -/
  Spells : π → Json → Prop
  /-- The part is a default and may be left out. -/
  Default : π → Prop

namespace Spelling

variable (S : Spelling π)

/-- **Members spell parts** in their order, with members under unknown keys anywhere between them. -/
inductive Members (known : List Text) : List π → List (Text × Json) → Prop
  | nil : Members known [] []
  | part {p : π} {v : Json} {ps : List π} {ms : List (Text × Json)} :
    S.Spells p v → Members known ps ms → Members known (p :: ps) ((S.label p, v) :: ms)
  | other {m : Text × Json} {ps : List π} {ms : List (Text × Json)} :
    m.1 ∉ known → Members known ps ms → Members known ps (m :: ms)

/-- **The written parts** are all parts in any order, but for some that are defaults. -/
def Written (parts written : List π) : Prop :=
  ∃ omitted, (written ++ omitted).Perm parts ∧ ∀ p ∈ omitted, S.Default p

/-- **A tree spells parts**: as an object with the parts in any order and other members mixed in, or as an array of
the parts in their order. Parts that are defaults may be left out, in an array at the end. -/
inductive Node (parts : List π) : Json → Prop
  | object {written : List π} {ms : List (Text × Json)} : S.Written parts written →
    S.Members (parts.map S.label) written ms → Node parts (.object ms)
  | array {written omitted : List π} {vs : List Json} : written ++ omitted = parts →
    (∀ p ∈ omitted, S.Default p) → List.Forall₂ S.Spells written vs → Node parts (.array vs)

/-! ### Parts that are written -/

variable {S : Spelling π} {parts written : List π} {β : Type} {b : β}

theorem Written.mem {p : π} (h : S.Written parts written) (hp : p ∈ written) : p ∈ parts := by
  obtain ⟨omitted, hperm, -⟩ := h
  exact hperm.subset (List.mem_append_left omitted hp)

theorem Written.nodup (h : S.Written parts written) (hnodup : (parts.map S.label).Nodup) :
    (written.map S.label).Nodup := by
  obtain ⟨omitted, hperm, -⟩ := h
  have hall : ((written ++ omitted).map S.label).Nodup := (hperm.map S.label).nodup_iff.2 hnodup
  rw [List.map_append] at hall
  exact hall.of_append_left

/-- What is looked for among the written parts is found, or belongs to a default that is left out. -/
theorem Written.findSome?_cases (h : S.Written parts written) (g : π → Option β) (q : π) (hq : q ∈ parts)
    (hg : g q = some b) (hunique : ∀ p ∈ parts, ∀ c, g p = some c → c = b) :
    written.findSome? g = some b ∨ S.Default q ∧ written.findSome? g = none := by
  cases hfind : written.findSome? g with
  | none =>
    obtain ⟨omitted, hperm, ho⟩ := h
    have hwritten : q ∉ written := fun hmem => by
      rw [List.findSome?_eq_none_iff.1 hfind q hmem] at hg
      cases hg
    exact Or.inr ⟨ho q ((List.mem_append.1 (hperm.mem_iff.2 hq)).resolve_left hwritten), rfl⟩
  | some c =>
    obtain ⟨p, hp, hc⟩ := List.exists_of_findSome?_eq_some hfind
    rw [hunique p (h.mem hp) c hc]
    exact Or.inl rfl

/-- A part that is no default is found among the written parts. -/
theorem Written.findSome?_eq (h : S.Written parts written) (g : π → Option β) (q : π) (hq : q ∈ parts)
    (hg : g q = some b) (hunique : ∀ p ∈ parts, ∀ c, g p = some c → c = b) (hdefault : ¬ S.Default q) :
    written.findSome? g = some b :=
  (h.findSome?_cases g q hq hg hunique).resolve_right fun h => hdefault h.1

/-- A part is found among the written parts, or is the default. -/
theorem Written.getD_findSome?_eq (h : S.Written parts written) (g : π → Option β) (q : π) (hq : q ∈ parts)
    (hg : g q = some b) (hunique : ∀ p ∈ parts, ∀ c, g p = some c → c = b) {d : β} (hdefault : S.Default q → b = d) :
    (written.findSome? g).getD d = b := by
  obtain h | ⟨hq, h⟩ := h.findSome?_cases g q hq hg hunique
  · rw [h, Option.getD_some]
  · rw [h, Option.getD_none, hdefault hq]

end Spelling

/-- **A change to trees that keeps what they spell**: texts and truth values stay as they are, lists are changed item
by item, and a record is kept if its parts are. -/
structure KeepsSpelling (f : Json → Json) : Prop where
  string (t : Text) : f (.string t) = .string t
  bool (b : Bool) : f (.bool b) = .bool b
  array (vs : List Json) : f (.array vs) = .array (vs.map f)
  node {π : Type} {S : Spelling π} {parts : List π} {v : Json} : (parts.map S.label).Nodup →
    (∀ {p : π} {v : Json}, S.Spells p v → S.Spells p (f v)) → S.Node parts v → S.Node parts (f v)

namespace Reader

/-- A record is read part by part. -/
structure ReadsParts (r : Record π α) (S : Spelling π) (part : Nat → Text → Reader π) : Prop where
  label : r.label = S.label
  nodup : (r.keys.map Key.label).Nodup
  part {levels : Nat} {p : π} {v : Json} :
    S.Spells p v → v.nesting ≤ levels → v.InRange → ReadsTree (part levels (S.label p)) v p

variable {r : Record π α} {S : Spelling π} {part : Nat → Text → Reader π} {levels : Nat} {s : Text}

theorem knows_iff {l : Text} : r.knows l = true ↔ l ∈ r.keys.map Key.label := by
  simp [Record.knows]

theorem given_iff {ps : List π} {l : Text} : r.given ps l = true ↔ l ∈ ps.map r.label := by
  simp [Record.given]

/-- A part whose key no other part has is not given before. -/
theorem not_given (hlabel : r.label = S.label) {p : π} {before after : List π}
    (hnodup : ((before ++ p :: after).map S.label).Nodup) : ¬ r.given before (S.label p) = true := by
  rw [given_iff, hlabel]
  rw [List.map_append, List.nodup_append] at hnodup
  exact fun hmem => hnodup.2.2 _ hmem _ List.mem_cons_self rfl

/-- **The members of an object are taken up as the parts they spell**, and other members are skipped. -/
theorem takes_readMember (hr : ReadsParts r S part) {written read : List π} {ms : List (Text × Json)}
    (h : S.Members (r.keys.map Key.label) written ms)
    (hknown : ∀ p ∈ written, S.label p ∈ r.keys.map Key.label)
    (hnodup : ((read ++ written).map S.label).Nodup) (hn : ∀ m ∈ ms, m.2.nesting ≤ levels)
    (hrange : ∀ m ∈ ms, m.2.InRange) :
    Takes (r.readMember (part levels)) read ms (read ++ written) := by
  induction h generalizing read with
  | nil =>
    rw [List.append_nil]
    exact .nil read
  | @part p v ps ms hv _ ih =>
    obtain ⟨hn, hns⟩ := List.forall_mem_cons.1 hn
    obtain ⟨hrange, hranges⟩ := List.forall_mem_cons.1 hrange
    obtain ⟨hp, hps⟩ := List.forall_mem_cons.1 hknown
    have hgiven : ¬ r.given read (S.label p) = true := not_given hr.label hnodup
    have hlist : read ++ p :: ps = (read ++ [p]) ++ ps := by simp
    rw [hlist] at hnodup ⊢
    refine .cons (fun s hs => ?_) (ih hps hnodup hns hranges)
    show Reads (r.readMember (part levels) read (S.label p)) _ _ _
    unfold Record.readMember
    rw [if_pos (knows_iff.2 hp), if_neg hgiven]
    exact (reads_colon _).bind ((hr.part hv hn hrange s hs).bind (.pure _ s))
  | @other m ps ms hm _ ih =>
    refine .cons (fun s hs => ?_) (ih hknown hnodup (List.forall_mem_cons.1 hn).2 (List.forall_mem_cons.1 hrange).2)
    unfold Record.readMember
    rw [if_neg (mt knows_iff.1 hm)]
    exact (reads_colon _).bind ((readsTree_skipValue m.2 s hs).bind (.pure read s))

/-! ### Arrays -/

/-- Keys that need not be there are passed over at the end of an array. -/
theorem reads_readItems_end {keys : List Key} (n : Nat) (h : ∀ k ∈ keys, k.required = false) (s : Text) :
    Reads (r.readItems (part levels) n keys) (']' :: s) [] (']' :: s) := by
  induction keys generalizing n with
  | nil => exact .pure [] _
  | cons k keys ih =>
    obtain ⟨hk, hkeys⟩ := List.forall_mem_cons.1 h
    refine (reads_nextItem_end _ s).bind ?_
    rw [if_neg Bool.false_ne_true, hk, if_neg Bool.false_ne_true]
    exact ih (n + 1) hkeys

/-- A part belongs to a key, which need not be there if the part is a default. -/
def Belongs (S : Spelling π) (p : π) (k : Key) : Prop := S.label p = k.label ∧ (S.Default p → k.required = false)

theorem optional_of_default {omitted : List π} {keys : List Key} (h : List.Forall₂ (Belongs S) omitted keys)
    (ho : ∀ p ∈ omitted, S.Default p) : ∀ k ∈ keys, k.required = false := by
  induction h with
  | nil => exact nofun
  | cons hp _ ih =>
    obtain ⟨hdefault, ho⟩ := List.forall_mem_cons.1 ho
    exact List.forall_mem_cons.2 ⟨hp.2 hdefault, ih ho⟩

/-- The rest of an array is read key by key. -/
theorem reads_readItems_rest (hr : ReadsParts r S part) {written omitted : List π} {vs : List Json} {keys : List Key}
    (h : List.Forall₂ S.Spells written vs) (hkeys : List.Forall₂ (Belongs S) (written ++ omitted) keys)
    (ho : ∀ p ∈ omitted, S.Default p) (hn : ∀ v ∈ vs, v.nesting ≤ levels) (hrange : ∀ v ∈ vs, v.InRange) (n : Nat)
    (s : Text) :
    Reads (r.readItems (part levels) (n + 1) keys) (vs.flatMap (',' :: ·.spelled) ++ ']' :: s) written (']' :: s) := by
  induction h generalizing keys n with
  | nil => exact reads_readItems_end _ (optional_of_default hkeys ho) s
  | @cons p v ps vs hv _ ih =>
    obtain ⟨k, keys, ⟨hk, -⟩, htail, rfl⟩ := List.forall₂_cons_left_iff.1 hkeys
    obtain ⟨hn, hns⟩ := List.forall_mem_cons.1 hn
    obtain ⟨hrange, hranges⟩ := List.forall_mem_cons.1 hrange
    rw [List.flatMap_cons, List.append_assoc]
    refine (reads_nextItem_value v _).2.bind ?_
    rw [if_pos rfl, ← hk]
    exact (hr.part hv hn hrange _ (ended_items vs s)).bind ((ih htail hns hranges (n + 1)).bind (.pure _ _))

/-- **The items of an array are read as the parts they spell.** -/
theorem reads_readItems (hr : ReadsParts r S part) {written omitted : List π} {vs : List Json}
    (h : List.Forall₂ S.Spells written vs) (hkeys : List.Forall₂ (Belongs S) (written ++ omitted) r.keys)
    (ho : ∀ p ∈ omitted, S.Default p) (hn : ∀ v ∈ vs, v.nesting ≤ levels) (hrange : ∀ v ∈ vs, v.InRange) (s : Text) :
    Reads (r.readItems (part levels) 0 r.keys) (spelledItems vs ++ ']' :: s) written (']' :: s) := by
  cases h with
  | nil => exact reads_readItems_end 0 (optional_of_default hkeys ho) s
  | @cons p v ps vs hv h =>
    obtain ⟨k, keys, ⟨hk, -⟩, htail, hcons⟩ := List.forall₂_cons_left_iff.1 hkeys
    obtain ⟨hn, hns⟩ := List.forall_mem_cons.1 hn
    obtain ⟨hrange, hranges⟩ := List.forall_mem_cons.1 hrange
    rw [spelledItems_cons, List.append_assoc, hcons]
    refine (reads_nextItem_value v _).1.bind ?_
    rw [if_pos rfl, ← hk]
    exact (hr.part hv hn hrange _ (ended_items vs s)).bind
      ((reads_readItems_rest hr h htail ho hns hranges 0 s).bind (.pure _ _))

/-! ### Whole records -/

theorem map_label_eq {parts : List π} {keys : List Key} (h : List.Forall₂ (Belongs S) parts keys) :
    parts.map S.label = keys.map Key.label := by
  have heq : List.Forall₂ Eq (parts.map S.label) (keys.map Key.label) :=
    List.forall₂_map_left_iff.2 (List.forall₂_map_right_iff.2 (h.imp fun _ _ h => h.1))
  exact List.forall₂_eq_eq_eq ▸ heq

/-- **A record is read from every tree that spells its parts.** -/
theorem readsTree_record (hr : ReadsParts r S part) {parts : List π} {v : Json} {a : α}
    (hkeys : List.Forall₂ (Belongs S) parts r.keys)
    (hbuild : ∀ written, S.Written parts written → r.build written = .ok a) (hv : S.Node parts v)
    (hn : v.nesting ≤ levels) (hrange : v.InRange) : ReadsTree (r.read part levels) v a := by
  have hlabels : parts.map S.label = r.keys.map Key.label := map_label_eq hkeys
  intro s _
  refine Reads.placed ?_
  cases hv with
  | @object written ms hwritten hms =>
    obtain ⟨levels, rfl, hmember⟩ := nesting_object_le.1 hn
    have hrange := inRange_object.1 hrange
    have hnodup : (([] ++ written).map S.label).Nodup := hwritten.nodup (hlabels ▸ hr.nodup)
    have hknown : ∀ p ∈ written, S.label p ∈ r.keys.map Key.label := fun p hp =>
      hlabels ▸ List.mem_map_of_mem (hwritten.mem hp)
    have hread := reads_members (takes_readMember hr (hlabels ▸ hms) hknown hnodup hmember hrange) s
    rw [spelled_object_append]
    exact reads_bracket .object (Reads.bracketed (hread.bind (.ofExcept (hbuild _ hwritten) _)))
  | @array written omitted vs happend ho hvs =>
    obtain ⟨levels, rfl, hitem⟩ := nesting_array_le.1 hn
    have hrange := inRange_array.1 hrange
    have hread := reads_readItems hr hvs (happend ▸ hkeys) ho hitem hrange s
    rw [spelled_array_append]
    have hwritten : S.Written parts written := ⟨omitted, List.Perm.of_eq happend, ho⟩
    exact reads_bracket .list (Reads.bracketed (hread.bind (.ofExcept (hbuild _ hwritten) _)))

/-! ### Simple values -/

theorem readsTree_scalar {wanted : Text} {ofTree : Json → Option α} {v : Json} {a : α} (hv : v.isPlain)
    (hrange : v.InRange) (h : ofTree v = some a) : ReadsTree (scalar wanted ofTree) v a := by
  intro s hs
  refine Reads.placed (reads_plain hv hrange hs ?_)
  rw [h]
  exact .pure a s

theorem ReadsTree.map {r : Reader π} {v : Json} {p : π} (h : ReadsTree r v p) (f : π → α) :
    ReadsTree (f <$> r) v (f p) := fun s hs => (h s hs).map f

theorem inRange_string (t : Text) : (Json.string t).InRange := nofun

theorem readsTree_text (t : Text) : ReadsTree text (.string t) t := readsTree_scalar rfl (inRange_string t) rfl

theorem readsTree_text? (t : Option Text) : ReadsTree text? (t.elim .null .string) t := by
  cases t with
  | none => exact readsTree_scalar (v := .null) rfl nofun rfl
  | some t => exact readsTree_scalar (v := .string t) rfl (inRange_string t) rfl

theorem readsTree_bool (b : Bool) : ReadsTree bool (.bool b) b := readsTree_scalar rfl nofun rfl

/-- What a text stands for is read from the text. -/
theorem readsTree_named {wanted : Text} {ofText : Text → Except Fault α} {t : Text} {a : α} (h : ofText t = .ok a) :
    ReadsTree (placed do
      let t ← scalar wanted fun
        | .string t => some t
        | _ => none
      Reader.ofExcept (ofText t)) (.string t) a := by
  intro s hs
  refine Reads.placed (Reads.bind (a := t) ?_ (.ofExcept h s))
  refine readsTree_scalar rfl (inRange_string t) ?_ s hs
  rfl

/-- The items of a list are read one by one. -/
theorem forall₂_readsTree {item : Reader α} {P : α → Json → Prop}
    (hitem : ∀ {a : α} {v : Json}, P a v → v.nesting ≤ levels → v.InRange → ReadsTree item v a)
    {as : List α} {vs : List Json} (h : List.Forall₂ P as vs) (hn : ∀ v ∈ vs, v.nesting ≤ levels)
    (hrange : ∀ v ∈ vs, v.InRange) : List.Forall₂ (ReadsTree item) vs as := by
  induction h with
  | nil => exact .nil
  | cons hv _ ih =>
    obtain ⟨hn, hns⟩ := List.forall_mem_cons.1 hn
    obtain ⟨hrange, hranges⟩ := List.forall_mem_cons.1 hrange
    exact .cons (hitem hv hn hrange) (ih hns hranges)

/-- **A list is read from every tree that spells its items.** -/
theorem readsTree_list {item : Nat → Reader α} {P : α → Json → Prop}
    (hreads : ∀ {levels : Nat} {a : α} {v : Json}, P a v → v.nesting ≤ levels → v.InRange →
      ReadsTree (item levels) v a)
    {as : List α} {vs : List Json} (h : List.Forall₂ P as vs) (hn : (Json.array vs).nesting ≤ levels)
    (hrange : (Json.array vs).InRange) : ReadsTree (list item levels) (.array vs) as := by
  obtain ⟨levels, rfl, hitem⟩ := nesting_array_le.1 hn
  have hitems := forall₂_readsTree hreads h hitem (inRange_array.1 hrange)
  intro s _
  rw [spelled_array_append]
  exact Reads.placed (reads_bracket .list (Reads.bracketed (reads_items hitems s)))

end Reader

end EditorScaffold.Json
