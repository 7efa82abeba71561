import EditorScaffold.Field
import Mathlib.Data.List.Forall2

/-! # Which fields are serialised

A type is serialised if it is a plain type within any number of containers (`FieldType.serializable_iff`), and a field
if its own facts allow it: whether it is static, what its attributes spell, who can see it, and its type. These are
told here one by one (`IsBindable`), beside what a profile says of its field (`Tells`); `serializable_tells` puts both
together over a list of fields. -/

namespace EditorScaffold

namespace FieldType

variable {t core : FieldType} {layers : List Container}

/-! ### Types within containers -/

/-- The type within containers, the outermost first. -/
def within (layers : List Container) (core : FieldType) : FieldType := layers.foldr container core

/-- A type without containers around it that can be serialised: the text type, or the name of a value, an enumeration or
an engine object. -/
def IsPlain (core : FieldType) : Prop :=
  core = text ∨ ∃ name, core = leaf .object name ∨ core = leaf .enumeration name ∨ core = leaf .value name

theorem serializable_within (layers : List Container) (core : FieldType) :
    (within layers core).serializable = core.serializable := by
  induction layers with
  | nil => rfl
  | cons c layers ih => exact ih

theorem IsPlain.serializable (h : core.IsPlain) : core.serializable = true := by
  obtain rfl | ⟨name, rfl | rfl | rfl⟩ := h <;> rfl

theorem IsPlain.not_container (h : core.IsPlain) (c : Container) (e : FieldType) : core ≠ container c e := by
  obtain rfl | ⟨name, rfl | rfl | rfl⟩ := h <;> nofun

/-- **A type can be serialised** if and only if it is a plain type within containers. -/
theorem serializable_iff (t : FieldType) :
    t.serializable = true ↔ ∃ layers core, t = within layers core ∧ core.IsPlain := by
  constructor
  · intro h
    match t with
    | text => exact ⟨[], text, rfl, Or.inl rfl⟩
    | leaf .object name => exact ⟨[], _, rfl, Or.inr ⟨name, Or.inl rfl⟩⟩
    | leaf .enumeration name => exact ⟨[], _, rfl, Or.inr ⟨name, Or.inr (Or.inl rfl)⟩⟩
    | leaf .value name => exact ⟨[], _, rfl, Or.inr ⟨name, Or.inr (Or.inr rfl)⟩⟩
    | leaf .plainClass _ => cases h
    | generic _ _ => cases h
    | container c e =>
      obtain ⟨layers, core, rfl, hcore⟩ := (serializable_iff e).1 h
      exact ⟨c :: layers, core, rfl, hcore⟩
  · rintro ⟨layers, core, rfl, hcore⟩
    rw [serializable_within, hcore.serializable]

/-- A plain type within containers is a container itself exactly if there are any. -/
theorem isContainer_within (h : core.IsPlain) (layers : List Container) :
    (within layers core).isContainer = true ↔ layers ≠ [] := by
  cases layers with
  | nil =>
    refine iff_of_false (fun hc => ?_) (by simp)
    obtain ⟨e, he⟩ := Option.isSome_iff_exists.1 hc
    cases core with
    | container c e => exact h.not_container c e rfl
    | leaf _ _ => cases he
    | text => cases he
    | generic _ _ => cases he
  | cons c layers => exact iff_of_true rfl (List.cons_ne_nil c layers)

end FieldType

namespace Field

variable {f g : Field} {p : Profile}

/-! ### Attributes -/

/-- The attributes that forbid serialisation. -/
def forbidding : List Text :=
  ["NonSerialized", "NonSerializedAttribute", "System.NonSerialized", "System.NonSerializedAttribute"].map String.toList

/-- The attributes that ask for serialisation. -/
def asking : List Text :=
  ["SerializeField", "SerializeFieldAttribute", "UnityEngine.SerializeField",
    "UnityEngine.SerializeFieldAttribute"].map String.toList

theorem hasMarker_iff (f : Field) (m : Marker) : f.hasMarker m = true ↔ ∃ a ∈ f.attributes, a ∈ m.spellings := by
  simp [hasMarker, Marker.ofText?_eq_some_iff]

theorem hasMarker_nonSerialized_iff (f : Field) :
    f.hasMarker .nonSerialized = true ↔ ∃ a ∈ f.attributes, a ∈ forbidding :=
  f.hasMarker_iff .nonSerialized

theorem hasMarker_serializeField_iff (f : Field) :
    f.hasMarker .serializeField = true ↔ ∃ a ∈ f.attributes, a ∈ asking :=
  f.hasMarker_iff .serializeField

/-! ### Fields -/

/-- **An editor can bind the field.** -/
structure IsBindable (f : Field) : Prop where
  notStatic : f.isStatic = false
  notForbidden : ¬ ∃ a ∈ f.attributes, a ∈ forbidding
  visible : f.access = .unrestricted ∨ ∃ a ∈ f.attributes, a ∈ asking
  typed : ∃ layers core, f.type = FieldType.within layers core ∧ core.IsPlain

theorem isBindable_iff (f : Field) : f.IsBindable ↔ (!f.isStatic && f.isSerializable) = true := by
  simp only [isSerializable, Bool.and_eq_true, Bool.or_eq_true, Bool.not_eq_true', decide_eq_true_iff,
    hasMarker_serializeField_iff, FieldType.serializable_iff, ← Bool.not_eq_true, hasMarker_nonSerialized_iff]
  constructor
  · rintro ⟨hstatic, hforbidden, hvisible, htyped⟩
    exact ⟨by rw [hstatic]; exact Bool.false_ne_true, ⟨hforbidden, hvisible⟩, htyped⟩
  · rintro ⟨hstatic, ⟨hforbidden, hvisible⟩, htyped⟩
    exact ⟨Bool.eq_false_iff.2 hstatic, hforbidden, hvisible, htyped⟩

instance : DecidablePred IsBindable := fun f => decidable_of_iff _ (isBindable_iff f).symm

/-- **A profile tells the facts of a field** that an editor can bind. -/
structure Tells (f : Field) (p : Profile) : Prop where
  name : p.name = f.name
  type : p.type = f.type
  access : p.access = f.access
  nonSerialized : p.nonSerialized = false
  serializeField : p.serializeField = true ↔ ∃ a ∈ f.attributes, a ∈ asking
  isCollection : ∀ layers core, f.type = FieldType.within layers core → core.IsPlain →
    (p.isCollection = true ↔ layers ≠ [])

theorem IsBindable.tells_profile (h : f.IsBindable) : f.Tells f.profile where
  name := rfl
  type := rfl
  access := rfl
  nonSerialized := Bool.eq_false_iff.2 (mt f.hasMarker_nonSerialized_iff.1 h.notForbidden)
  serializeField := f.hasMarker_serializeField_iff
  isCollection layers core htype hcore := by
    show f.type.isContainer = true ↔ layers ≠ []
    rw [htype]
    exact FieldType.isContainer_within hcore layers

/-- **Fields that differ in attributes of no matter**: the same attributes forbid serialisation of both, and the same
ones ask for it. -/
structure Agrees (f g : Field) : Prop where
  name : f.name = g.name
  type : f.type = g.type
  access : f.access = g.access
  isStatic : f.isStatic = g.isStatic
  attributes : ∀ a ∈ forbidding ++ asking, a ∈ f.attributes ↔ a ∈ g.attributes

theorem Agrees.hasMarker_eq (h : f.Agrees g) (m : Marker) : f.hasMarker m = g.hasMarker m := by
  have hm : ∀ a ∈ m.spellings, a ∈ forbidding ++ asking := by
    cases m
    · exact fun a ha => List.mem_append_left _ ha
    · exact fun a ha => List.mem_append_right _ ha
  rw [Bool.eq_iff_iff, hasMarker_iff, hasMarker_iff]
  exact exists_congr fun a => and_congr_left fun ha => h.attributes a (hm a ha)

theorem Agrees.profile_eq (h : f.Agrees g) : f.profile = g.profile := by
  unfold profile
  rw [h.name, h.type, h.access, h.hasMarker_eq, h.hasMarker_eq]

theorem Agrees.isSerializable_eq (h : f.Agrees g) : f.isSerializable = g.isSerializable := by
  unfold isSerializable
  rw [h.type, h.access, h.hasMarker_eq, h.hasMarker_eq]

theorem serializable_cons (f : Field) (fs : List Field) :
    serializable (f :: fs) = (if !f.isStatic && f.isSerializable then [f.profile] else []) ++ serializable fs := by
  unfold serializable
  rw [List.filter_cons]
  split <;> rfl

/-- **The fields that an editor can bind are told one by one**, in their order and each as often as it is declared.
Other attributes of the fields, and how often and in which order attributes are given, do not matter, and neither does
what other fields there are. -/
theorem serializable_tells (fs : List Field) :
    List.Forall₂ Tells (fs.filter fun f => f.IsBindable) (serializable fs) ∧
    (∀ gs, List.Forall₂ Agrees fs gs → serializable fs = serializable gs) ∧
    ∀ gs, serializable (fs ++ gs) = serializable fs ++ serializable gs := by
  refine ⟨?_, fun gs h => ?_, serializable_append fs⟩
  · have hfilter : (fs.filter fun f => f.IsBindable) = fs.filter fun f => !f.isStatic && f.isSerializable :=
      List.filter_congr fun f _ => by rw [Bool.eq_iff_iff, decide_eq_true_iff, isBindable_iff]
    unfold serializable
    rw [← hfilter, List.forall₂_map_right_iff, List.forall₂_same]
    intro f hf
    exact (of_decide_eq_true (List.mem_filter.1 hf).2).tells_profile
  · induction h with
    | nil => rfl
    | cons hfg _ ih =>
      rw [serializable_cons, serializable_cons, ih, hfg.isStatic, hfg.isSerializable_eq, hfg.profile_eq]

end Field

end EditorScaffold
