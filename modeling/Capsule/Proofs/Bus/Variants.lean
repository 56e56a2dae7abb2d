import Capsule.Bus.Reply
import Mathlib.Algebra.Group.Nat.Defs
import Mathlib.Algebra.Ring.Int.Defs

/-!
# Properties on the wire

A bag of properties crosses the bus as an object of variants, each a signature with data. Reading
one back keeps what the data mean exactly and drops what means nothing: no word is wrapped, no text
cut and no array shortened.

## Main definitions

* `Property.Means`: the data that mean a value exactly, under a signature. A word is an integer of
  its range, written as one, so `4.0` and `256` are no bytes.
* `Reply.Writes`: the members of an object write a bag, among members under other names that mean
  nothing.
* `Reply.Says`: what a member says of a property.

## Main results

* `Property.ofVariant?_eq_some_iff`: a variant is read as a value iff its data mean it.
* `Reply.properties_exact`: what is written is read, and what is read was written.

A double is the exception. JSON has no not-a-number, so every one of them is written as `null`, and
under the signature of doubles all data that are no number are read as one. Which of them it was is
lost, and `Property.canonical` forgets it; a double that is a number is kept as it is.
-/

namespace Capsule

/-! ### Data -/

namespace Json

variable {j : Json}

theorem bool?_eq_some_iff {b : Bool} : j.bool? = some b ↔ j = .bool b := by
  cases j <;> simp [bool?]

theorem text?_eq_some_iff {s : String} : j.text? = some s ↔ j = .string s := by
  cases j <;> simp [text?]

theorem items?_eq_some_iff {xs : List Json} : j.items? = some xs ↔ j = .array xs := by
  cases j <;> simp [items?]

/-- An unsigned word is a natural number of its range, written as an integer. -/
theorem natural?_eq_some_iff {bits n : Nat} :
    j.natural? bits = some n ↔ j = .ofNat n ∧ n < 2 ^ bits := by
  cases j with
  | number v =>
    cases v with
    | integer i =>
      show (if 0 ≤ i ∧ i < (Nat.pow 2 bits : Nat) then some i.toNat else none) = some n ↔ _
      rw [ofNat, Nat.pow_eq]
      split
      · simp
        omega
      · simp
        omega
    | real d => simp [natural?, number?, Number.natural?, ofNat]
  | _ => simp [natural?, number?, ofNat]

/-- A signed word is an integer of its range, written as an integer. -/
theorem integer?_eq_some_iff {bits : Nat} {n : Int} :
    j.integer? bits = some n ↔
      j = .ofInt n ∧ -(2 ^ (bits - 1) : Int) ≤ n ∧ n < 2 ^ (bits - 1) := by
  cases j with
  | number v =>
    cases v with
    | integer i =>
      show (if -((Nat.pow 2 (bits - 1) : Nat) : Int) ≤ i ∧ i < (Nat.pow 2 (bits - 1) : Nat)
        then some i else none) = some n ↔ _
      simp only [Nat.pow_eq, ofInt]
      push_cast
      split
      · simp
        omega
      · simp
        omega
    | real d => simp [integer?, number?, Number.integer?, ofInt]
  | _ => simp [integer?, number?, ofInt]

/-- A word type holds exactly the numbers of its range. -/
theorem map_natural?_eq_some_iff {α : Type} {bits : Nat} {ofNat : Nat → α} {toNat : α → Nat}
    (toNat_lt : ∀ a, toNat a < 2 ^ bits) (ofNat_toNat : ∀ a, ofNat (toNat a) = a)
    (toNat_ofNat : ∀ n < 2 ^ bits, toNat (ofNat n) = n) {a : α} :
    (j.natural? bits).map ofNat = some a ↔ j = .ofNat (toNat a) := by
  simp only [Option.map_eq_some_iff, natural?_eq_some_iff]
  constructor
  · rintro ⟨n, ⟨rfl, hn⟩, rfl⟩
    rw [toNat_ofNat n hn]
  · rintro rfl
    exact ⟨toNat a, ⟨rfl, toNat_lt a⟩, ofNat_toNat a⟩

theorem uint8?_eq_some_iff {n : UInt8} : j.uint8? = some n ↔ j = .ofNat n.toNat :=
  map_natural?_eq_some_iff UInt8.toNat_lt (fun _ => UInt8.ofNat_toNat)
    fun _ => UInt8.toNat_ofNat_of_lt'

theorem uint32?_eq_some_iff {n : UInt32} : j.uint32? = some n ↔ j = .ofNat n.toNat :=
  map_natural?_eq_some_iff UInt32.toNat_lt (fun _ => UInt32.ofNat_toNat)
    fun _ => UInt32.toNat_ofNat_of_lt'

theorem uint64?_eq_some_iff {n : UInt64} : j.uint64? = some n ↔ j = .ofNat n.toNat :=
  map_natural?_eq_some_iff UInt64.toNat_lt (fun _ => UInt64.ofNat_toNat)
    fun _ => UInt64.toNat_ofNat_of_lt'

theorem int32?_eq_some_iff {n : Int32} : j.int32? = some n ↔ j = .ofInt n.toInt := by
  simp only [int32?, Option.map_eq_some_iff, integer?_eq_some_iff]
  constructor
  · rintro ⟨i, ⟨rfl, hlow, hhigh⟩, rfl⟩
    rw [Int32.toInt_ofInt_of_le hlow hhigh]
  · rintro rfl
    exact ⟨n.toInt, ⟨rfl, n.le_toInt, n.toInt_lt⟩, Int32.ofInt_toInt n⟩

end Json

/-! ### Values -/

namespace Property

/-- Data that mean a value exactly, under a signature. -/
inductive Means : Property → String → Json → Prop
  | bool (b : Bool) : Means (.bool b) "b" (.bool b)
  | uint32 (n : UInt32) : Means (.uint32 n) "u" (.ofNat n.toNat)
  | uint64 (n : UInt64) : Means (.uint64 n) "t" (.ofNat n.toNat)
  | int32 (n : Int32) : Means (.int32 n) "i" (.ofInt n.toInt)
  | double (n : Number) : Means (.double n.toDouble) "d" (.number n)
  | text {signature : String} (h : signature ∈ ["s", "o", "g"]) (s : String) :
      Means (.text s) signature (.string s)
  | bytes (bs : List UInt8) : Means (.bytes bs) "ay" (.array (bs.map fun b => .ofNat b.toNat))
  | int32s (ns : List Int32) : Means (.int32s ns) "ai" (.array (ns.map fun n => .ofInt n.toInt))

/-- **A variant is read as what it means exactly**, and as nothing else; but under the signature of
doubles all data that are no number stand for the number that is not known. -/
theorem ofVariant?_eq_some_iff {signature : String} {data : Json} {p : Property} :
    ofVariant? signature data = some p ↔ p.Means signature data ∨
      signature = "d" ∧ data.number? = none ∧ p = .double .nan := by
  constructor
  · intro h
    unfold ofVariant? at h
    split at h
    · obtain ⟨b, hb, rfl⟩ := Option.map_eq_some_iff.mp h
      rw [Json.bool?_eq_some_iff.mp hb]
      exact .inl (.bool b)
    · obtain ⟨n, hn, rfl⟩ := Option.map_eq_some_iff.mp h
      rw [Json.uint32?_eq_some_iff.mp hn]
      exact .inl (.uint32 n)
    · obtain ⟨n, hn, rfl⟩ := Option.map_eq_some_iff.mp h
      rw [Json.uint64?_eq_some_iff.mp hn]
      exact .inl (.uint64 n)
    · obtain ⟨n, hn, rfl⟩ := Option.map_eq_some_iff.mp h
      rw [Json.int32?_eq_some_iff.mp hn]
      exact .inl (.int32 n)
    · cases h
      cases data with
      | number n => exact .inl (.double n)
      | _ => exact .inr ⟨rfl, rfl, rfl⟩
    -- The three signatures of texts.
    iterate 3
      obtain ⟨s, hs, rfl⟩ := Option.map_eq_some_iff.mp h
      rw [Json.text?_eq_some_iff.mp hs]
      exact .inl (.text (by simp) s)
    · obtain ⟨items, hitems, h⟩ := Option.bind_eq_some_iff.mp h
      obtain ⟨bs, hbs, rfl⟩ := Option.map_eq_some_iff.mp h
      rw [Json.items?_eq_some_iff.mp hitems,
        (Json.mapM_eq_some_iff_eq_map fun _ _ => Json.uint8?_eq_some_iff).mp hbs]
      exact .inl (.bytes bs)
    · obtain ⟨items, hitems, h⟩ := Option.bind_eq_some_iff.mp h
      obtain ⟨ns, hns, rfl⟩ := Option.map_eq_some_iff.mp h
      rw [Json.items?_eq_some_iff.mp hitems,
        (Json.mapM_eq_some_iff_eq_map fun _ _ => Json.int32?_eq_some_iff).mp hns]
      exact .inl (.int32s ns)
    · cases h
  · rintro (h | ⟨rfl, hdata, rfl⟩)
    · cases h with
      | bool b => rfl
      | uint32 n => simp [ofVariant?, Json.uint32?_eq_some_iff]
      | uint64 n => simp [ofVariant?, Json.uint64?_eq_some_iff]
      | int32 n => simp [ofVariant?, Json.int32?_eq_some_iff]
      | double n => rfl
      | text h s =>
        simp only [List.mem_cons, List.not_mem_nil, or_false] at h
        rcases h with rfl | rfl | rfl <;> rfl
      | bytes bs =>
        have hbs := (Json.mapM_eq_some_iff_eq_map fun _ _ => Json.uint8?_eq_some_iff).mpr
          (rfl : _ = bs.map fun b => Json.ofNat b.toNat)
        simp [ofVariant?, Json.items?, hbs]
      | int32s ns =>
        have hns := (Json.mapM_eq_some_iff_eq_map fun _ _ => Json.int32?_eq_some_iff).mpr
          (rfl : _ = ns.map fun n => Json.ofInt n.toInt)
        simp [ofVariant?, Json.items?, hns]
    · show some (Property.double data.doubleOrNaN) = _
      rw [Json.doubleOrNaN, hdata]

/-- The same value, but any not-a-number is the one that stands for "not known". -/
def canonical : Property → Property
  | .double d => .double (if d.isNaN then .nan else d)
  | p => p

end Property

/-! ### Replies -/

namespace Reply

/-- A value on the wire, with its signature. -/
def variant (signature : String) (data : Json) : Json :=
  .object [("data", data), ("type", .string signature)]

/-- The reply that gives the properties of an object. -/
def getAll (members : List (String × Json)) : Json :=
  .object [("data", .array [.object members]), ("type", .string "a\x7bsv\x7d")]

/-- A value is written as data that mean it, or as `null` if it is a not-a-number. -/
inductive Written : Property → Json → Prop
  | exact {p : Property} {signature : String} {data : Json} (means : p.Means signature data) :
      Written p (variant signature data)
  | nan {d : Double} (isNaN : d.isNaN = true) : Written (.double d) (variant "d" .null)

/-- A value whose data, if it has any, mean nothing under its signature, if it has one. -/
def Stray (v : Json) : Prop :=
  ∀ signature data, v.member? "type" = some (.string signature) → v.member? "data" = some data →
    ∀ p : Property, ¬ p.Means signature data

/-- The members of an object write a bag: each property is there, each in some way, and members
under other names are strays. -/
structure Writes (members : List (String × Json)) (bag : PropertyBag) : Prop where
  covered {name : String} {p : Property} (h : bag.get? name = some p) : ∃ v, (name, v) ∈ members
  written {name : String} {v : Json} {p : Property} (hv : (name, v) ∈ members)
    (h : bag.get? name = some p) : Written p v
  others {name : String} {v : Json} (hv : (name, v) ∈ members) (h : bag.get? name = none) : Stray v

/-- What a member says of a property: its data mean it exactly. Only of a double it may say that the
number is not known. -/
inductive Says (v : Json) : Property → Prop
  | exact {p : Property} {signature : String} {data : Json}
      (type_eq : v.member? "type" = some (.string signature))
      (data_eq : v.member? "data" = some data) (means : p.Means signature data) : Says v p
  | unknown (type_eq : v.member? "type" = some (.string "d"))
      (no_number : ∀ data, v.member? "data" = some data → data.number? = none) :
      Says v (.double .nan)

/-- An array with an item that its signature does not allow. -/
inductive HasForeignItem (v : Json) : Prop
  | byte {items : List Json} {x : Json} (type_eq : v.member? "type" = some (.string "ay"))
      (data_eq : v.member? "data" = some (.array items)) (mem : x ∈ items)
      (foreign : ∀ n : UInt8, x ≠ .ofNat n.toNat) : HasForeignItem v
  | int32 {items : List Json} {x : Json} (type_eq : v.member? "type" = some (.string "ai"))
      (data_eq : v.member? "data" = some (.array items)) (mem : x ∈ items)
      (foreign : ∀ n : Int32, x ≠ .ofInt n.toInt) : HasForeignItem v

variable {name signature : String} {data v : Json} {p : Property} {bag : PropertyBag}
  {members : List (String × Json)}

theorem type_variant : (variant signature data).member? "type" = some (.string signature) := rfl

theorem data_variant : (variant signature data).member? "data" = some data := rfl

/-- A text is taken only from a member that has one. -/
theorem type_eq_of_getD (hne : signature ≠ "")
    (h : ((v.member? "type").bind Json.text?).getD "" = signature) :
    v.member? "type" = some (.string signature) := by
  cases htext : (v.member? "type").bind Json.text? with
  | none =>
    rw [htext] at h
    exact absurd h.symm hne
  | some s =>
    obtain ⟨j, hj, hs⟩ := Option.bind_eq_some_iff.mp htext
    rw [htext] at h
    rw [hj, Json.text?_eq_some_iff.mp hs, ← h]
    rfl

theorem signature_ne_of_means (h : p.Means signature data) : signature ≠ "" := by
  cases h with
  | text h => exact fun he => absurd (he ▸ h) (by decide)
  | _ => decide

theorem data_ne_null_of_means (h : p.Means signature data) : data ≠ .null := by
  cases h <;> nofun

/-- A member is read as the property that it speaks of. -/
theorem property?_eq_some_iff {member : String × Json} :
    property? member = some (name, p) ↔ member.1 = name ∧ Says member.2 p := by
  obtain ⟨key, v⟩ := member
  simp only [property?, Option.bind_eq_bind, Option.bind_eq_some_iff, Option.pure_def,
    Option.some.injEq, Prod.mk.injEq, Property.ofVariant?_eq_some_iff]
  constructor
  · rintro ⟨q, h, rfl, rfl⟩
    refine ⟨rfl, ?_⟩
    rcases h with means | ⟨htype, hnumber, rfl⟩
    · have htype := type_eq_of_getD (signature_ne_of_means means) rfl
      cases hdata : v.member? "data" with
      | none =>
        rw [hdata] at means
        exact absurd rfl (data_ne_null_of_means means)
      | some data =>
        rw [hdata] at means
        exact .exact htype hdata means
    · refine .unknown (type_eq_of_getD (by decide) htype) fun data hdata => ?_
      rw [hdata] at hnumber
      exact hnumber
  · rintro ⟨rfl, h⟩
    refine ⟨p, ?_, rfl, rfl⟩
    cases h with
    | exact htype hdata means =>
      rw [htype, hdata]
      exact .inl means
    | unknown htype hnumber =>
      refine .inr ⟨by rw [htype]; rfl, ?_, rfl⟩
      cases hdata : v.member? "data" with
      | none => rfl
      | some data => exact hnumber data hdata

theorem eq_of_says {q : Property} (h : Says v p) (h' : Says v q) : p = q := by
  have hp : property? ("", v) = some ("", p) := property?_eq_some_iff.mpr ⟨rfl, h⟩
  have hq : property? ("", v) = some ("", q) := property?_eq_some_iff.mpr ⟨rfl, h'⟩
  exact (Prod.mk.inj (Option.some.inj (hp.symm.trans hq))).2

/-- What is found in a bag is what some member says. -/
theorem exists_says (h : (TextMap.ofList (members.filterMap property?)).get? name = some p) :
    ∃ v, (name, v) ∈ members ∧ Says v p := by
  rw [TextMap.get?_ofList] at h
  obtain ⟨⟨key, v⟩, hv, hp⟩ := List.mem_filterMap.mp (TextMap.mem_of_lastOf? h)
  obtain ⟨rfl, hsays⟩ := property?_eq_some_iff.mp hp
  exact ⟨v, hv, hsays⟩

/-- Something is found where some member says something. -/
theorem exists_of_says (hv : (name, v) ∈ members) (h : Says v p) :
    ∃ q, (TextMap.ofList (members.filterMap property?)).get? name = some q := by
  rw [TextMap.get?_ofList, ← Option.ne_none_iff_exists', Ne, TextMap.lastOf?_eq_none_iff]
  intro hnone
  exact hnone (name, p) (List.mem_filterMap.mpr ⟨_, hv, property?_eq_some_iff.mpr ⟨rfl, h⟩⟩) rfl

/-! ### Writing -/

theorem says_of_means (h : p.Means signature data) : Says (variant signature data) p :=
  .exact type_variant data_variant h

theorem says_of_no_number (h : data.number? = none) : Says (variant "d" data) (.double .nan) := by
  refine .unknown type_variant fun data' hdata => ?_
  cases hdata
  exact h

/-- What is written says the value, or another not-a-number. -/
theorem exists_says_of_written (h : Written p v) :
    ∃ q, Says v q ∧ q.canonical = p.canonical := by
  cases h with
  | exact means => exact ⟨p, says_of_means means, rfl⟩
  | nan isNaN => exact ⟨_, says_of_no_number rfl, by simp [Property.canonical, isNaN]⟩

/-- A stray says at most that a number is not known. -/
theorem says_iff_of_stray (hstray : Stray v) :
    Says v p ↔ p = .double .nan ∧ v.member? "type" = some (.string "d") := by
  constructor
  · intro h
    cases h with
    | exact htype hdata means => exact absurd means (hstray _ _ htype hdata p)
    | unknown htype => exact ⟨rfl, htype⟩
  · rintro ⟨rfl, htype⟩
    refine .unknown htype fun data hdata => ?_
    cases data with
    | number n => exact absurd (.double n) (hstray _ _ htype hdata _)
    | _ => rfl

/-- What is not read at all is a stray. -/
theorem stray_variant (h : Property.ofVariant? signature data = none) :
    Stray (variant signature data) := by
  intro signature' data' htype hdata p means
  cases htype
  cases hdata
  cases h.symm.trans (Property.ofVariant?_eq_some_iff.mpr (.inl means))

/-- An array means its items, each of them under the signature of the array. -/
theorem items_of_means {items : List Json} (h : p.Means signature (.array items)) :
    signature = "ay" ∧ (∀ x ∈ items, ∃ n : UInt8, x = .ofNat n.toNat) ∨
      signature = "ai" ∧ ∀ x ∈ items, ∃ n : Int32, x = .ofInt n.toInt := by
  cases h with
  | bytes bs => exact .inl ⟨rfl, List.forall_mem_map.mpr fun n _ => ⟨n, rfl⟩⟩
  | int32s ns => exact .inr ⟨rfl, List.forall_mem_map.mpr fun n _ => ⟨n, rfl⟩⟩

/-- An array with a foreign item says nothing. -/
theorem not_says_of_hasForeignItem (hitem : HasForeignItem v) : ¬ Says v p := by
  have htype_inj : ∀ {s s' : String}, v.member? "type" = some (.string s) →
      v.member? "type" = some (.string s') → s = s' := fun h h' =>
    Json.string.inj (Option.some.inj (h.symm.trans h'))
  intro h
  cases hitem with
  | byte htype hdata hx foreign =>
    cases h with
    | exact htype' hdata' means =>
      cases hdata.symm.trans hdata'
      rcases items_of_means means with ⟨-, hitems⟩ | ⟨rfl, -⟩
      · obtain ⟨n, hn⟩ := hitems _ hx
        exact foreign n hn
      · exact absurd (htype_inj htype htype') (by decide)
    | unknown htype' => exact absurd (htype_inj htype htype') (by decide)
  | int32 htype hdata hx foreign =>
    cases h with
    | exact htype' hdata' means =>
      cases hdata.symm.trans hdata'
      rcases items_of_means means with ⟨rfl, -⟩ | ⟨-, hitems⟩
      · exact absurd (htype_inj htype htype') (by decide)
      · obtain ⟨n, hn⟩ := hitems _ hx
        exact foreign n hn
    | unknown htype' => exact absurd (htype_inj htype htype') (by decide)

/-- A value that is not infinite is written under its own signature. -/
theorem written_self (h : ∀ d, p = .double d → d.isInfinite = false) :
    Written p (variant p.signature p.data) := by
  cases p with
  | bool b => exact .exact (.bool b)
  | uint32 n => exact .exact (.uint32 n)
  | uint64 n => exact .exact (.uint64 n)
  | int32 n => exact .exact (.int32 n)
  | text s => exact .exact (.text List.mem_cons_self s)
  | bytes bs => exact .exact (.bytes bs)
  | int32s ns => exact .exact (.int32s ns)
  | double d =>
    have hfinite := h d rfl
    cases hnan : d.isNaN with
    | true =>
      rw [Property.data, Property.doubleData, if_pos (by simp [hnan])]
      exact .nan hnan
    | false =>
      rw [Property.data, Property.doubleData, if_neg (by simp [hnan, hfinite])]
      exact .exact (.double (.real d))

/-- A bag is written by its values under their own signatures, in any order and among strays. -/
theorem writes_of_perm {strays : List (String × Json)}
    (hbag : ∀ name d, bag.get? name = some (.double d) → d.isInfinite = false)
    (hstrays : ∀ e ∈ strays, bag.get? e.1 = none ∧ Stray e.2)
    (hperm : members.Perm
      (bag.toList.map (fun e => (e.1, variant e.2.signature e.2.data)) ++ strays)) :
    Writes members bag := by
  have hmem : ∀ name v, (name, v) ∈ members ↔
      (∃ p, bag.get? name = some p ∧ v = variant p.signature p.data) ∨ (name, v) ∈ strays := by
    intro name v
    rw [hperm.mem_iff, List.mem_append, List.mem_map]
    refine or_congr ⟨?_, ?_⟩ Iff.rfl
    · rintro ⟨e, he, heq⟩
      cases heq
      exact ⟨e.2, TextMap.mem_toList_iff.mp he, rfl⟩
    · rintro ⟨p, hp, rfl⟩
      exact ⟨(name, p), TextMap.mem_toList_iff.mpr hp, rfl⟩
  refine ⟨fun {name p} h => ⟨_, (hmem name _).mpr (.inl ⟨p, h, rfl⟩)⟩, ?_, ?_⟩
  · intro name v p hv h
    rcases (hmem name v).mp hv with ⟨q, hq, rfl⟩ | hv
    · obtain rfl : q = p := Option.some.inj (hq.symm.trans h)
      exact written_self fun d hd => hbag name d (hd ▸ h)
    · cases (hstrays _ hv).1.symm.trans h
  · intro name v hv h
    rcases (hmem name v).mp hv with ⟨q, hq, -⟩ | hv
    · cases hq.symm.trans h
    · exact (hstrays _ hv).2

/-! ### Reading -/

/-- Of a property of a bag that is written only that is found, of another only that it is not
known. -/
theorem get?_of_writes (h : Writes members bag) :
    let read := TextMap.ofList (members.filterMap property?)
    (∀ name p, bag.get? name = some p →
        (read.get? name).map Property.canonical = some p.canonical) ∧
      ∀ name, bag.get? name = none → ∀ p, read.get? name = some p ↔
        p = .double .nan ∧
          ∃ v, (name, v) ∈ members ∧ v.member? "type" = some (.string "d") := by
  intro read
  refine ⟨fun name p hp => ?_, fun name hname p => ⟨fun hread => ?_, ?_⟩⟩
  · obtain ⟨v, hv⟩ := h.covered hp
    obtain ⟨q, hq, -⟩ := exists_says_of_written (h.written hv hp)
    obtain ⟨r, hr⟩ := exists_of_says hv hq
    obtain ⟨v', hv', hsays⟩ := exists_says hr
    obtain ⟨q', hq', hcanonical⟩ := exists_says_of_written (h.written hv' hp)
    rw [hr, eq_of_says hsays hq', Option.map_some, hcanonical]
  · obtain ⟨v, hv, hsays⟩ := exists_says hread
    obtain ⟨rfl, htype⟩ := (says_iff_of_stray (h.others hv hname)).mp hsays
    exact ⟨rfl, v, hv, htype⟩
  · rintro ⟨rfl, v, hv, htype⟩
    obtain ⟨r, hr⟩ := exists_of_says hv ((says_iff_of_stray (h.others hv hname)).mpr ⟨rfl, htype⟩)
    obtain ⟨v', hv', hsays⟩ := exists_says hr
    rw [hr, ((says_iff_of_stray (h.others hv' hname)).mp hsays).1]

theorem properties_eq_ok_iff {reply : Json} {read : PropertyBag} :
    properties reply = .ok read ↔ ∃ members, firstArgument? reply = some (.object members) ∧
      read = TextMap.ofList (members.filterMap property?) := by
  rw [properties]
  cases firstArgument? reply with
  | none => simp [unexpected]
  | some j => cases j <;> simp [members?, unexpected, eq_comm]

/-- **A bag of properties is read exactly.** A bag whose doubles are not infinite is written by its
values under their own signatures, in any order and among strays. However a bag is written, each of
its properties is read as it is, and of the other names only those of a stray double are found, as
not known. Of any reply that is read, a property is found only if a member of its name says it, and
never where an array holds an item that its signature does not allow. -/
theorem properties_exact :
    (∀ (bag : PropertyBag) (strays members : List (String × Json)),
      (∀ name d, bag.get? name = some (.double d) → d.isInfinite = false) →
      (∀ e ∈ strays, bag.get? e.1 = none ∧ Stray e.2) →
      members.Perm (bag.toList.map (fun e => (e.1, variant e.2.signature e.2.data)) ++ strays) →
        Writes members bag) ∧
    (∀ members bag, Writes members bag → ∃ read, properties (getAll members) = .ok read ∧
      (∀ name p, bag.get? name = some p →
        (read.get? name).map Property.canonical = some p.canonical) ∧
      ∀ name, bag.get? name = none → ∀ p, read.get? name = some p ↔
        p = .double .nan ∧
          ∃ v, (name, v) ∈ members ∧ v.member? "type" = some (.string "d")) ∧
    ∀ reply read, properties reply = .ok read →
      ∃ members, firstArgument? reply = some (.object members) ∧
        (∀ name p, read.get? name = some p → ∃ v, (name, v) ∈ members ∧ Says v p) ∧
        ∀ name, (∀ v, (name, v) ∈ members → HasForeignItem v) → read.get? name = none := by
  refine ⟨fun bag strays members hbag hstrays hperm => writes_of_perm hbag hstrays hperm,
    fun members bag h => ⟨_, rfl, get?_of_writes h⟩, fun reply read h => ?_⟩
  obtain ⟨members, hmembers, rfl⟩ := properties_eq_ok_iff.mp h
  refine ⟨members, hmembers, fun name p hp => exists_says hp, fun name hforeign => ?_⟩
  refine Option.eq_none_iff_forall_ne_some.mpr fun p hp => ?_
  obtain ⟨v, hv, hsays⟩ := exists_says hp
  exact not_says_of_hasForeignItem (hforeign v hv) hsays

/-- A leader and a load that is not known, after a value of a kind that no property has and an array
with an item out of range. -/
theorem properties_exact_machine :
    ∃ read, properties (getAll [("Class", variant "x" (.ofInt 1)),
        ("Unit", variant "ay" (.array [.ofNat 1, .ofNat 256])),
        ("Leader", variant "u" (.ofNat 7)), ("Load", variant "d" .null)]) = .ok read ∧
      (read.get? "Leader").map Property.canonical = some (.uint32 7) ∧
      (read.get? "Load").map Property.canonical = some (.double .nan) ∧
      read.get? "Unit" = none := by
  obtain ⟨hwrites, hreads, hsays⟩ := properties_exact
  let bag : PropertyBag := TextMap.ofList [("Leader", .uint32 7), ("Load", .double .nan)]
  have hfinite : ∀ name d, bag.get? name = some (.double d) → d.isInfinite = false := by
    intro name d h
    rw [TextMap.get?_ofList] at h
    have hmem := TextMap.mem_of_lastOf? h
    simp only [List.mem_cons, Prod.mk.injEq, Property.double.injEq, List.not_mem_nil, or_false,
      reduceCtorEq, and_false, false_or] at hmem
    rw [hmem.2]
    rfl
  have hbag := hwrites bag [("Class", variant "x" (.ofInt 1)),
      ("Unit", variant "ay" (.array [.ofNat 1, .ofNat 256]))] _ hfinite
    (by
      simp only [List.mem_cons, List.not_mem_nil, or_false]
      rintro e (rfl | rfl)
      · exact ⟨rfl, stray_variant rfl⟩
      · exact ⟨rfl, stray_variant rfl⟩)
    List.perm_append_comm
  obtain ⟨read, hread, hfound, -⟩ := hreads _ bag hbag
  refine ⟨read, hread, hfound "Leader" _ rfl, hfound "Load" _ rfl, ?_⟩
  obtain ⟨_, ⟨⟩, -, hforeign⟩ := hsays (getAll [_, _, _, _]) read hread
  refine hforeign "Unit" fun v hv => ?_
  obtain rfl : v = variant "ay" (.array [.ofNat 1, .ofNat 256]) := by
    simpa using hv
  refine .byte rfl rfl (List.mem_cons_of_mem _ List.mem_cons_self) fun n hn => ?_
  have hlt := n.toNat_lt
  simp [Json.ofNat] at hn
  omega

/-- One item out of range takes the whole array with it, and nothing else. -/
example : properties (getAll [("Leader", variant "u" (.ofNat 7)),
      ("MachineId", variant "ay" (.array [.ofNat 1, .ofNat 256]))]) =
    .ok (TextMap.ofList [("Leader", .uint32 7)]) := by
  rfl

end Reply

end Capsule
