import EditorScaffold.Proofs.Json.Sorting

/-! # Records are decoded from every spelling

Decoding a tree takes the members of an object, or the items of an array, one by one, just as reading its text does, but
nothing limits the brackets inside each other and numbers may have no value. A record whose parts are decoded from what
spells them is decoded from every tree that spells it (`Record.ofTree_of_node`). -/

namespace EditorScaffold.Json

open Reader (Belongs)

variable {π α : Type} {r : Record π α} {S : Spelling π}

namespace Record

/-- A record is decoded part by part. -/
structure DecodesParts (r : Record π α) (S : Spelling π) : Prop where
  label : r.label = S.label
  nodup : (r.keys.map Key.label).Nodup
  part {p : π} {v : Json} : S.Spells p v → r.part (S.label p) v = .ok p

/-- **The members of an object are decoded to the parts they spell**, and other members are passed over. -/
theorem foldlM_addMember (hr : DecodesParts r S) {written done : List π} {ms : List (Text × Json)}
    (h : S.Members (r.keys.map Key.label) written ms) (hknown : ∀ p ∈ written, S.label p ∈ r.keys.map Key.label)
    (hnodup : ((done ++ written).map S.label).Nodup) : ms.foldlM r.addMember done = .ok (done ++ written) := by
  induction h generalizing done with
  | nil =>
    rw [List.append_nil]
    rfl
  | @part p v ps ms hv _ ih =>
    obtain ⟨hp, hps⟩ := List.forall_mem_cons.1 hknown
    have hgiven : ¬ r.given done (S.label p) = true := Reader.not_given hr.label hnodup
    have hadd : r.addMember done (S.label p, v) = .ok (done ++ [p]) := by
      rw [addMember, if_pos (Reader.knows_iff.2 hp), if_neg hgiven, hr.part hv]
      rfl
    have hlist : done ++ p :: ps = (done ++ [p]) ++ ps := by simp
    rw [hlist] at hnodup ⊢
    rw [List.foldlM_cons, hadd]
    exact ih hps hnodup
  | @other m ps ms hm _ ih =>
    have hskip : r.addMember done m = .ok done := by rw [addMember, if_neg (mt Reader.knows_iff.1 hm)]
    rw [List.foldlM_cons, hskip]
    exact ih hknown hnodup

/-- Keys that need not be there are passed over at the end of an array. -/
theorem ofItems_nil {keys : List Key} (n : Nat) (h : ∀ k ∈ keys, k.required = false) :
    r.ofItems n keys [] = .ok ([], []) := by
  induction keys generalizing n with
  | nil => rfl
  | cons k keys ih =>
    obtain ⟨hk, hkeys⟩ := List.forall_mem_cons.1 h
    rw [ofItems, hk, if_neg Bool.false_ne_true]
    exact ih (n + 1) hkeys

/-- **The items of an array are decoded to the parts they spell**, and none is left over. -/
theorem ofItems_eq (hr : DecodesParts r S) {written omitted : List π} {vs : List Json} {keys : List Key}
    (h : List.Forall₂ S.Spells written vs) (hkeys : List.Forall₂ (Belongs S) (written ++ omitted) keys)
    (ho : ∀ p ∈ omitted, S.Default p) (n : Nat) : r.ofItems n keys vs = .ok (written, []) := by
  induction h generalizing keys n with
  | nil => exact ofItems_nil n (Reader.optional_of_default hkeys ho)
  | @cons p v ps vs hv _ ih =>
    obtain ⟨k, keys, ⟨hk, -⟩, htail, rfl⟩ := List.forall₂_cons_left_iff.1 hkeys
    rw [ofItems, ← hk, hr.part hv, ih htail (n + 1)]
    rfl

/-- **A record is decoded from every tree that spells its parts.** -/
theorem ofTree_of_node (hr : DecodesParts r S) {parts : List π} {v : Json} {a : α}
    (hkeys : List.Forall₂ (Belongs S) parts r.keys)
    (hbuild : ∀ written, S.Written parts written → r.build written = .ok a) (hv : S.Node parts v) :
    r.ofTree v = .ok a := by
  have hlabels : parts.map S.label = r.keys.map Key.label := Reader.map_label_eq hkeys
  cases hv with
  | @object written ms hwritten hms =>
    have hknown : ∀ p ∈ written, S.label p ∈ r.keys.map Key.label := fun p hp =>
      hlabels ▸ List.mem_map_of_mem (hwritten.mem hp)
    have hnodup : (([] ++ written).map S.label).Nodup := hwritten.nodup (hlabels ▸ hr.nodup)
    rw [ofTree, foldlM_addMember hr (hlabels ▸ hms) hknown hnodup]
    exact hbuild written hwritten
  | @array written omitted vs happend ho hvs =>
    have hwritten : S.Written parts written := ⟨omitted, List.Perm.of_eq happend, ho⟩
    rw [ofTree, ofItems_eq hr hvs (happend ▸ hkeys) ho 0]
    show (r.build written >>= fun a => if [].isEmpty then Except.ok a else _) = _
    rw [hbuild written hwritten]
    rfl

end Record

/-! ### Lists -/

theorem asList_of_forall₂ {item : Json → Except Fault α} {P : α → Json → Prop}
    (hitem : ∀ {a : α} {v : Json}, P a v → item v = .ok a) {as : List α} {vs : List Json} (h : List.Forall₂ P as vs) :
    asList item (.array vs) = .ok as := by
  show vs.mapM item = _
  induction h with
  | nil => rfl
  | cons hv _ ih =>
    rw [List.mapM_cons, hitem hv, ih]
    rfl

/-! ### Round trips -/

/-- **Values come back from their trees**, from those as they are written and from those with their members sorted, and
so the tree tells which value it was. -/
structure RoundTrips (encode : α → Json) (decode : Json → Except Fault α) : Prop where
  decode_encode (a : α) : decode (encode a) = .ok a
  decode_sorted (a : α) : decode (encode a).sorted = .ok a
  encode_injective : Function.Injective encode
  sorted_injective : Function.Injective fun a => (encode a).sorted

theorem injective_of_decode {encode : α → Json} {decode : Json → Except Fault α}
    (h : ∀ a, decode (encode a) = .ok a) : Function.Injective encode := fun a b hab => by
  have hdecode : (Except.ok a : Except Fault α) = .ok b := by rw [← h a, ← h b, hab]
  exact Except.ok.inj hdecode

/-- What is encoded to a spelling, and decoded from every spelling, comes back. -/
theorem roundTrips_of_spells {Spells : α → Json → Prop} {encode : α → Json} {decode : Json → Except Fault α}
    (hencode : ∀ a, Spells a (encode a))
    (hchanged : ∀ {f : Json → Json}, KeepsSpelling f → ∀ {a : α} {v : Json}, Spells a v → Spells a (f v))
    (hdecode : ∀ {a : α} {v : Json}, Spells a v → decode v = .ok a) : RoundTrips encode decode := by
  have hsorted (a : α) : decode (encode a).sorted = .ok a := hdecode (hchanged keepsSpelling_sorted (hencode a))
  exact ⟨fun a => hdecode (hencode a), hsorted, injective_of_decode fun a => hdecode (hencode a),
    injective_of_decode hsorted⟩

end EditorScaffold.Json
