import Capsule.Bus.Descriptor

/-!
# What is wanted of a bag

A descriptor is made of the properties of a bag, one after the other, and the first that is missing
or of another kind is reported. The code asks for each property with a function of its kind. Here
what is wanted is a list of names and kinds (`MachineDescriptor.wanted`), and the report is read off
that list.

`Wants` ties a computation to a list: it fails exactly if something of the list is not in the bag,
and with the first such thing. It is built up along the computation, so that a descriptor with
another list costs no more than that list.

## Both ways

A descriptor can be written as the properties that it stands for (`MachineDescriptor.properties`),
and this is the one table that says which field is which property. `ReadsBy` is the contract between
a reader of bags, a list of what is wanted and such a table. That nothing else in a bag matters
follows from the contract (`ReadsBy.congr`), and is not proved of each reader.

## Main definitions

* `PropertyBag.Holds`: a bag has a property of a name and kind
* `MachineDescriptor.wanted`, `ImageDescriptor.wanted`: what is wanted of a bag
* `Wants`: a computation reports the first thing of a list that is not in the bag
* `ReadsBy`: a reader of bags reads by what is wanted

## Main results

* `MachineDescriptor.ofBag_eq_error_iff`, `ImageDescriptor.ofBag_eq_error_iff`
* `PropertyBag.descriptors_by_own_keys`: both readers read by what is wanted
-/

namespace Capsule

/-- A bag has a property of a name and kind. -/
def PropertyBag.Holds (bag : PropertyBag) (want : String × Kind) : Prop :=
  ∃ value, bag.get? want.1 = some value ∧ value.kind = want.2

/-- A computation fails exactly if the bag lacks something of a list, and reports the first such
thing. -/
def Wants (bag : PropertyBag) (wanted : List (String × Kind)) {α : Type} (x : Except Error α) :
    Prop :=
  ∀ e, x = .error e ↔ ∃ before want behind, wanted = before ++ want :: behind ∧
    (∀ w ∈ before, bag.Holds w) ∧ ¬ bag.Holds want ∧ e = .property want.1 want.2.name

namespace Wants

variable {bag : PropertyBag} {α β : Type}

theorem pure (a : α) : Wants bag [] (.ok a) := by
  intro e
  simp

/-- A property that is required is wanted before what is wanted behind it. -/
theorem require_bind {name : String} {kind : Kind} {value? : Property → Option α}
    (hkind : ∀ p, (value? p).isSome = true ↔ p.kind = kind) {k : α → Except Error β}
    {wanted : List (String × Kind)} (hk : ∀ a, Wants bag wanted (k a)) :
    Wants bag ((name, kind) :: wanted) (require bag name kind value? >>= k) := by
  have hholds : ((bag.get? name).bind value?).isSome = true ↔ bag.Holds (name, kind) := by
    cases h : bag.get? name with
    | none => simp [PropertyBag.Holds, h]
    | some p => simp [PropertyBag.Holds, h, ← hkind]
  intro e
  rw [require]
  cases h : (bag.get? name).bind value? with
  | none =>
    have hlacks : ¬ bag.Holds (name, kind) := by simp [← hholds, h]
    show Except.error (.property name kind.name) = .error e ↔ _
    constructor
    · rintro ⟨⟩
      exact ⟨[], (name, kind), wanted, rfl, List.forall_mem_nil _, hlacks, rfl⟩
    · rintro ⟨before, want, behind, hwanted, hbefore, hwant, rfl⟩
      cases before with
      | nil =>
        obtain ⟨rfl, -⟩ := List.cons.inj hwanted
        rfl
      | cons w before =>
        obtain ⟨rfl, -⟩ := List.cons.inj hwanted
        exact absurd (hbefore _ (List.mem_cons_self ..)) hlacks
  | some a =>
    have hhas : bag.Holds (name, kind) := by simp [← hholds, h]
    show k a = .error e ↔ _
    rw [hk a e]
    constructor
    · rintro ⟨before, want, behind, rfl, hbefore, hwant, rfl⟩
      exact ⟨(name, kind) :: before, want, behind, rfl,
        List.forall_mem_cons.mpr ⟨hhas, hbefore⟩, hwant, rfl⟩
    · rintro ⟨before, want, behind, hwanted, hbefore, hwant, rfl⟩
      cases before with
      | nil =>
        obtain ⟨rfl, -⟩ := List.cons.inj hwanted
        exact absurd hhas hwant
      | cons w before =>
        obtain ⟨rfl, rfl⟩ := List.cons.inj hwanted
        exact ⟨before, want, behind, rfl,
          fun w hw => hbefore w (List.mem_cons_of_mem _ hw), hwant, rfl⟩

end Wants

/-! ### What is made of a bag -/

/-- A property that is required is the one under its name. -/
theorem require_eq_ok_iff {α : Type} {bag : PropertyBag} {name : String} {kind : Kind}
    {value? : Property → Option α} {property : α → Property}
    (h : ∀ p a, value? p = some a ↔ p = property a) {a : α} :
    require bag name kind value? = .ok a ↔ bag.get? name = some (property a) := by
  rw [require]
  cases hp : bag.get? name with
  | none => simp
  | some p =>
    rw [Option.bind_some, Option.some.injEq, ← h]
    cases value? p <;> simp

namespace Property

variable {bag : PropertyBag} {name : String}

theorem requireText_eq_ok_iff {s : String} :
    requireText bag name = .ok s ↔ bag.get? name = some (.text s) :=
  require_eq_ok_iff fun p s => by cases p <;> simp

theorem requireBool_eq_ok_iff {b : Bool} :
    requireBool bag name = .ok b ↔ bag.get? name = some (.bool b) :=
  require_eq_ok_iff fun p b => by cases p <;> simp

theorem requireUInt32_eq_ok_iff {n : UInt32} :
    requireUInt32 bag name = .ok n ↔ bag.get? name = some (.uint32 n) :=
  require_eq_ok_iff fun p n => by cases p <;> simp

theorem requireUInt64_eq_ok_iff {n : UInt64} :
    requireUInt64 bag name = .ok n ↔ bag.get? name = some (.uint64 n) :=
  require_eq_ok_iff fun p n => by cases p <;> simp

theorem requireBytes_eq_ok_iff {bs : List UInt8} :
    requireBytes bag name = .ok bs ↔ bag.get? name = some (.bytes bs) :=
  require_eq_ok_iff fun p bs => by cases p <;> simp

theorem requireInt32s_eq_ok_iff {ns : List Int32} :
    requireInt32s bag name = .ok ns ↔ bag.get? name = some (.int32s ns) :=
  require_eq_ok_iff fun p ns => by cases p <;> simp

end Property

/-- A reader of bags makes something of the properties that it wants, and of nothing else.
`properties` says which field is which property. -/
structure ReadsBy {δ : Type} (read : PropertyBag → Except Error δ) (wanted : List (String × Kind))
    (properties : δ → List (String × Property)) : Prop where
  /-- The fields have the kinds that are wanted. -/
  kinds (d : δ) : (properties d).map (fun p => (p.1, p.2.kind)) = wanted
  /-- Something is made of a bag if all that is wanted is there. -/
  complete (bag : PropertyBag) : (∃ d, read bag = .ok d) ↔ ∀ want ∈ wanted, bag.Holds want
  /-- It has each property of the bag in its own field. -/
  fields (bag : PropertyBag) (d : δ) :
    read bag = .ok d ↔ ∀ p ∈ properties d, bag.get? p.1 = some p.2
  /-- If something is not there, the first such thing is reported. -/
  first (bag : PropertyBag) (e : Error) : read bag = .error e ↔
    ∃ before want behind, wanted = before ++ want :: behind ∧ (∀ w ∈ before, bag.Holds w) ∧
      ¬ bag.Holds want ∧ e = .property want.1 want.2.name
  /-- Bags that have the same under the wanted names are read alike. -/
  congr (bag bag' : PropertyBag)
    (same : ∀ want ∈ wanted, bag.get? want.1 = bag'.get? want.1) : read bag = read bag'

namespace ReadsBy

variable {δ : Type} {read : PropertyBag → Except Error δ} {wanted : List (String × Kind)}
  {properties : δ → List (String × Property)}

/-- What is made of bags and what is reported of them decide all else. -/
theorem of_fields (kinds : ∀ d, (properties d).map (fun p => (p.1, p.2.kind)) = wanted)
    (fields : ∀ bag d, read bag = .ok d ↔ ∀ p ∈ properties d, bag.get? p.1 = some p.2)
    (first : ∀ bag, Wants bag wanted (read bag)) : ReadsBy read wanted properties where
  kinds := kinds
  fields := fields
  first bag e := first bag e
  complete bag := by
    constructor
    · rintro ⟨d, hd⟩ want hwant
      rw [← kinds d] at hwant
      obtain ⟨p, hp, rfl⟩ := List.mem_map.mp hwant
      exact ⟨p.2, (fields bag d).mp hd p hp, rfl⟩
    · intro hall
      cases hread : read bag with
      | ok d => exact ⟨d, rfl⟩
      | error e =>
        obtain ⟨before, want, behind, rfl, -, hlacks, -⟩ := (first bag e).mp hread
        exact absurd (hall want (by simp)) hlacks
  congr bag bag' same := by
    cases hread : read bag with
    | ok d =>
      symm
      rw [fields] at hread ⊢
      intro p hp
      have hwant : (p.1, p.2.kind) ∈ wanted := kinds d ▸ List.mem_map_of_mem hp
      rw [← same _ hwant]
      exact hread p hp
    | error e =>
      symm
      rw [first bag' e]
      obtain ⟨before, want, behind, rfl, hbefore, hlacks, rfl⟩ := (first bag e).mp hread
      have hholds : ∀ w ∈ before ++ want :: behind, bag'.Holds w ↔ bag.Holds w := by
        intro w hw
        rw [PropertyBag.Holds, PropertyBag.Holds, same w hw]
      exact ⟨before, want, behind, rfl,
        fun w hw => (hholds w (List.mem_append_left _ hw)).mpr (hbefore w hw),
        fun h => hlacks ((hholds want (by simp)).mp h), rfl⟩

end ReadsBy

/-! ### Machines and images -/

namespace MachineDescriptor

/-- What is wanted of the bag of a machine, in the order in which it is looked at. -/
def wanted : List (String × Kind) :=
  [("Name", .text), ("TimestampMonotonic", .uint64), ("Timestamp", .uint64),
   ("NetworkInterfaces", .int32s), ("Id", .bytes), ("Class", .text), ("Leader", .uint32),
   ("RootDirectory", .text), ("Service", .text), ("State", .text), ("Unit", .text)]

/-- The properties that describe a machine. -/
def properties (m : MachineDescriptor) : List (String × Property) :=
  [("Name", .text m.name), ("TimestampMonotonic", .uint64 m.timestampMonotonic),
   ("Timestamp", .uint64 m.timestamp), ("NetworkInterfaces", .int32s m.networkInterfaces),
   ("Id", .bytes m.id), ("Class", .text m.kind), ("Leader", .uint32 m.leader),
   ("RootDirectory", .text m.rootDirectory), ("Service", .text m.service),
   ("State", .text m.state), ("Unit", .text m.unit)]

theorem wants_ofBag (bag : PropertyBag) : Wants bag wanted (ofBag bag) := by
  unfold ofBag
  iterate 11
    refine Wants.require_bind (fun p => by cases p <;> simp [Property.kind]) fun _ => ?_
  exact .pure _

/-- **A bag that does not describe a machine is reported by the first thing that it lacks.** -/
theorem ofBag_eq_error_iff {bag : PropertyBag} {e : Error} :
    ofBag bag = .error e ↔ ∃ before want behind, wanted = before ++ want :: behind ∧
      (∀ w ∈ before, bag.Holds w) ∧ ¬ bag.Holds want ∧ e = .property want.1 want.2.name :=
  wants_ofBag bag e

/-- **The fields of a machine are the properties of its bag.** -/
theorem ofBag_eq_ok_iff {bag : PropertyBag} {m : MachineDescriptor} :
    ofBag bag = .ok m ↔ ∀ p ∈ m.properties, bag.get? p.1 = some p.2 := by
  unfold ofBag
  simp only [Except.bind_eq_ok_iff, Property.requireText_eq_ok_iff,
    Property.requireUInt64_eq_ok_iff, Property.requireInt32s_eq_ok_iff,
    Property.requireBytes_eq_ok_iff, Property.requireUInt32_eq_ok_iff]
  simp only [properties, List.forall_mem_cons]
  constructor
  · rintro ⟨_, h₁, _, h₂, _, h₃, _, h₄, _, h₅, _, h₆, _, h₇, _, h₈, _, h₉, _, h₁₀, _, h₁₁, ⟨⟩⟩
    exact ⟨h₁, h₂, h₃, h₄, h₅, h₆, h₇, h₈, h₉, h₁₀, h₁₁, List.forall_mem_nil _⟩
  · rintro ⟨h₁, h₂, h₃, h₄, h₅, h₆, h₇, h₈, h₉, h₁₀, h₁₁, -⟩
    exact ⟨_, h₁, _, h₂, _, h₃, _, h₄, _, h₅, _, h₆, _, h₇, _, h₈, _, h₉, _, h₁₀, _, h₁₁, rfl⟩

/-- Of all that is wrong with a bag the first thing is reported. -/
example :
    let bag : PropertyBag := .ofList [("Name", .text "web"), ("Timestamp", .text "soon")]
    ofBag bag = .error (.property "TimestampMonotonic" "u64") :=
  rfl

end MachineDescriptor

namespace ImageDescriptor

/-- What is wanted of the bag of an image, in the order in which it is looked at. -/
def wanted : List (String × Kind) :=
  [("CreationTimestamp", .uint64), ("Limit", .uint64), ("LimitExclusive", .uint64),
   ("ModificationTimestamp", .uint64), ("Name", .text), ("Path", .text), ("ReadOnly", .bool),
   ("Type", .text), ("Usage", .uint64), ("UsageExclusive", .uint64)]

/-- The properties that describe an image. -/
def properties (i : ImageDescriptor) : List (String × Property) :=
  [("CreationTimestamp", .uint64 i.creationTimestamp), ("Limit", .uint64 i.limit),
   ("LimitExclusive", .uint64 i.limitExclusive),
   ("ModificationTimestamp", .uint64 i.modificationTimestamp), ("Name", .text i.name),
   ("Path", .text i.path), ("ReadOnly", .bool i.readOnly), ("Type", .text i.kind),
   ("Usage", .uint64 i.usage), ("UsageExclusive", .uint64 i.usageExclusive)]

theorem wants_ofBag (bag : PropertyBag) : Wants bag wanted (ofBag bag) := by
  unfold ofBag
  iterate 10
    refine Wants.require_bind (fun p => by cases p <;> simp [Property.kind]) fun _ => ?_
  exact .pure _

/-- **A bag that does not describe an image is reported by the first thing that it lacks.** -/
theorem ofBag_eq_error_iff {bag : PropertyBag} {e : Error} :
    ofBag bag = .error e ↔ ∃ before want behind, wanted = before ++ want :: behind ∧
      (∀ w ∈ before, bag.Holds w) ∧ ¬ bag.Holds want ∧ e = .property want.1 want.2.name :=
  wants_ofBag bag e

/-- **The fields of an image are the properties of its bag.** -/
theorem ofBag_eq_ok_iff {bag : PropertyBag} {i : ImageDescriptor} :
    ofBag bag = .ok i ↔ ∀ p ∈ i.properties, bag.get? p.1 = some p.2 := by
  unfold ofBag
  simp only [Except.bind_eq_ok_iff, Property.requireText_eq_ok_iff,
    Property.requireUInt64_eq_ok_iff, Property.requireBool_eq_ok_iff]
  simp only [properties, List.forall_mem_cons]
  constructor
  · rintro ⟨_, h₁, _, h₂, _, h₃, _, h₄, _, h₅, _, h₆, _, h₇, _, h₈, _, h₉, _, h₁₀, ⟨⟩⟩
    exact ⟨h₁, h₂, h₃, h₄, h₅, h₆, h₇, h₈, h₉, h₁₀, List.forall_mem_nil _⟩
  · rintro ⟨h₁, h₂, h₃, h₄, h₅, h₆, h₇, h₈, h₉, h₁₀, -⟩
    exact ⟨_, h₁, _, h₂, _, h₃, _, h₄, _, h₅, _, h₆, _, h₇, _, h₈, _, h₉, _, h₁₀, rfl⟩

end ImageDescriptor

/-- **Descriptors are read by their own properties.** A machine or an image is made of a bag exactly
if the bag has each of the eleven or ten properties that are wanted, each of its kind; and then each
field is the property under its own name. Otherwise the first that is missing or of another kind is
reported, with the kind that is wanted. Nothing else in the bag plays a part. -/
theorem PropertyBag.descriptors_by_own_keys :
    ReadsBy MachineDescriptor.ofBag MachineDescriptor.wanted MachineDescriptor.properties ∧
      ReadsBy ImageDescriptor.ofBag ImageDescriptor.wanted ImageDescriptor.properties ∧
      MachineDescriptor.wanted.length = 11 ∧ ImageDescriptor.wanted.length = 10 :=
  ⟨.of_fields (fun _ => rfl) (fun _ _ => MachineDescriptor.ofBag_eq_ok_iff)
      MachineDescriptor.wants_ofBag,
    .of_fields (fun _ => rfl) (fun _ _ => ImageDescriptor.ofBag_eq_ok_iff)
      ImageDescriptor.wants_ofBag,
    rfl, rfl⟩

end Capsule
