import Capsule.Config
import Capsule.Settings
import Capsule.Proofs.Json.Soundness
import Capsule.Proofs.Record

/-!
# Accepted documents

What is accepted as a record is a whole document of the grammar: an object all of whose keys stand
for names, or an array of no more values than the record has fields.

A decoder may stop anywhere in a value, and one that stops early could leave a fault behind it
unseen. None does: `Decode.ReadsThrough` says that what a decoder accepts could have been skipped,
and it is proved of each kind of value, and of a record if it holds of its fields. The reader is
sound for what can be skipped, and so nothing that is broken anywhere is accepted.

A key that stands for nothing would be skipped, but no record is read past it: its fields are looked
up by the names of the members.

## Main definitions

* `Decode.ReadsThrough`: what a decoder accepts could be skipped
* `Record.ReadsThrough`: so it is with the fields of a record

## Main results

* `Record.readsThrough_ofDoc`: a record is read through if its fields are
* `Record.exists_text_of_ofJson`: what is accepted is a document of the grammar
-/

namespace Capsule

open Json (ArrayText ObjectText)

variable {σ α : Type}

namespace Decode

/-- A decoder reads a value through: what it accepts could be skipped. -/
def ReadsThrough (decode : Doc → Decoded α) : Prop :=
  ∀ ⦃d : Doc⦄ ⦃a : α⦄, decode d = .ok a → skip d = .ok ()

theorem skipMembers_eq_ok {ms : List (Key × Doc)}
    (h : ∀ m ∈ ms, (∃ name, m.1 = .text (.ok name)) ∧ skip m.2 = .ok ()) :
    skipMembers ms = .ok () := by
  induction ms with
  | nil => rfl
  | cons m ms ih =>
    obtain ⟨key, d⟩ := m
    obtain ⟨⟨⟨name, rfl⟩, hd⟩, hms⟩ := List.forall_mem_cons.mp h
    exact Doc.skipMembers_cons_iff.mpr ⟨hd, ih hms⟩

/-! ### Values of one type -/

theorem readsThrough_bool : ReadsThrough bool := by
  intro d b h
  unfold bool at h
  split at h
  · rfl
  · exact absurd h Decoded.mismatch_ne_ok

theorem readsThrough_text : ReadsThrough text := by
  intro d s h
  unfold text at h
  split at h
  · rfl
  · exact absurd h Decoded.mismatch_ne_ok

theorem readsThrough_word : ReadsThrough word := by
  intro d n h
  unfold word at h
  split at h
  · rfl
  · exact absurd h Decoded.mismatch_ne_ok

theorem readsThrough_optional {decode : Doc → Decoded α} (hdecode : ReadsThrough decode) :
    ReadsThrough (optional decode) := by
  intro d a h
  unfold optional at h
  split at h
  · rfl
  · cases hd : decode d with
    | error p =>
      rw [hd] at h
      cases h
    | ok a => exact hdecode hd

theorem skipItems_of_mapM {decode : Doc → Decoded α} (hdecode : ReadsThrough decode)
    {ds : List Doc} {as : List α} (h : ds.mapM decode = .ok as) : skipItems ds = .ok () := by
  induction ds generalizing as with
  | nil => rfl
  | cons d ds ih =>
    rw [List.mapM_cons] at h
    obtain ⟨a, ha, h⟩ := Except.bind_eq_ok_iff.mp h
    obtain ⟨as, has, -⟩ := Except.bind_eq_ok_iff.mp h
    exact Doc.skipItems_cons_iff.mpr ⟨hdecode ha, ih has⟩

theorem readsThrough_texts : ReadsThrough texts := by
  intro d ws h
  unfold texts at h
  split at h
  · obtain ⟨words, hwords, h⟩ := Except.bind_eq_ok_iff.mp h
    exact Doc.skip_array_iff.mpr
      ⟨skipItems_of_mapM readsThrough_text hwords, (Except.seq_eq_ok_iff.mp h).1⟩
  · exact absurd h Decoded.mismatch_ne_ok

/-! ### Any value -/

mutual

theorem skip_of_untypedIn {room : Nat} {d : Doc} {v : Json} (h : untypedIn room d = .ok v) :
    skip d = .ok () := by
  match d, room with
  | .null, _ | .bool _, _ | .number _, _ | .string _, _ => rfl
  | .broken f g, _ => cases h
  | .array items e, 0 | .object members e, 0 => cases h
  | .array items e, room + 1 =>
    rw [untypedIn] at h
    obtain ⟨xs, hxs, h⟩ := Except.bind_eq_ok_iff.mp h
    exact Doc.skip_array_iff.mpr ⟨skipItems_of_untypedItems hxs, (Except.seq_eq_ok_iff.mp h).1⟩
  | .object members e, room + 1 =>
    rw [untypedIn] at h
    obtain ⟨ms, hms, h⟩ := Except.bind_eq_ok_iff.mp h
    exact Doc.skip_object_iff.mpr
      ⟨skipMembers_of_untypedMembers hms, (Except.seq_eq_ok_iff.mp h).1⟩

theorem skipItems_of_untypedItems {room : Nat} {ds : List Doc} {xs : List Json}
    (h : untypedItems room ds = .ok xs) : skipItems ds = .ok () := by
  match ds with
  | [] => rfl
  | d :: ds =>
    rw [untypedItems] at h
    obtain ⟨x, hx, h⟩ := Except.bind_eq_ok_iff.mp h
    obtain ⟨xs, hxs, -⟩ := Except.bind_eq_ok_iff.mp h
    exact Doc.skipItems_cons_iff.mpr ⟨skip_of_untypedIn hx, skipItems_of_untypedItems hxs⟩

theorem skipMembers_of_untypedMembers {room : Nat} {ms : List (Key × Doc)}
    {soFar entries : List (String × Json)} (h : untypedMembers room ms soFar = .ok entries) :
    skipMembers ms = .ok () := by
  match ms with
  | [] => rfl
  | (.other, _) :: _ => cases h
  | (.text key, d) :: ms =>
    rw [untypedMembers] at h
    obtain ⟨k, -, h⟩ := Except.bind_eq_ok_iff.mp h
    obtain ⟨v, hv, h⟩ := Except.bind_eq_ok_iff.mp h
    exact Doc.skipMembers_cons_iff.mpr ⟨skip_of_untypedIn hv, skipMembers_of_untypedMembers h⟩

end

theorem readsThrough_stringMap : ReadsThrough Codec.decodeStringMap := by
  intro d m h
  unfold Codec.decodeStringMap at h
  split at h
  · rfl
  · obtain ⟨v, hv, -⟩ := Except.bind_eq_ok_iff.mp h
    exact skip_of_untypedIn hv

end Decode

/-! ### Records -/

/-- A field reads its value through, whatever has been read before. -/
def Field.ReadsThrough (f : Field σ) : Prop := ∀ s, Decode.ReadsThrough (f.ofDoc · s)

theorem Field.readsThrough_of {name : String} {codec : Codec α} {part : Part σ α}
    (h : Decode.ReadsThrough codec.ofDoc) : (Field.of name codec part).ReadsThrough := by
  intro s d t hread
  have hread : (codec.ofDoc d).map (part.set · s) = .ok t := hread
  cases hd : codec.ofDoc d with
  | error p =>
    rw [hd] at hread
    cases hread
  | ok a => exact h hd

namespace Record

variable {r : Record σ}

/-- The fields of a record read their values through. -/
def ReadsThrough (r : Record σ) : Prop := ∀ f ∈ r.fields, f.ReadsThrough

/-- Members that are read have names, and values that could be skipped. -/
theorem ReadsThrough.ofMembers (hr : r.ReadsThrough) {ms : List (Key × Doc)} {seen : List String}
    {s : σ} {result : σ × List String} (h : r.ofMembers seen s ms = .ok result) :
    ∀ m ∈ ms, (∃ name, m.1 = .text (.ok name)) ∧ Decode.skip m.2 = .ok () := by
  fun_induction r.ofMembers seen s ms with
  | case1 => exact List.forall_mem_nil _
  | case2 => cases h
  | case3 seen s key d ms ih_unknown ih_known =>
    obtain ⟨name, hname, h⟩ := Except.bind_eq_ok_iff.mp h
    have hkey : key = .ok name := by
      cases key <;> cases hname
      rfl
    suffices hskip : Decode.skip d = .ok () ∧
        ∀ m ∈ ms, (∃ name, m.1 = .text (.ok name)) ∧ Decode.skip m.2 = .ok () from
      List.forall_mem_cons.mpr ⟨⟨⟨name, by rw [hkey]⟩, hskip.1⟩, hskip.2⟩
    split at h
    · obtain ⟨hd, h⟩ := Except.seq_eq_ok_iff.mp h
      exact ⟨hd, ih_unknown h⟩
    · rename_i f hfield
      split at h
      · cases h
      · obtain ⟨s', hs', h⟩ := Except.bind_eq_ok_iff.mp h
        exact ⟨hr f (field?_eq_some hfield).1 s hs', ih_known name s' h⟩

/-- Items that are read could be skipped, and there is a field for each. -/
theorem ReadsThrough.ofItems {fs : List (Field σ)} (hfs : ∀ f ∈ fs, f.ReadsThrough)
    {ds : List Doc} {e : Ending} {n : Nat} {s t : σ} (h : r.ofItems n s fs ds e = .ok t) :
    Decode.skipItems ds = .ok () ∧ Decode.ending e = .ok () ∧ ds.length ≤ fs.length := by
  fun_induction r.ofItems n s fs ds e with
  | case1 n s e =>
    obtain ⟨hclosing, -⟩ := Except.seq_eq_ok_iff.mp h
    cases e <;> cases hclosing
    exact ⟨rfl, rfl, Nat.le_refl _⟩
  | case2 => cases h
  | case3 => exact ⟨rfl, (Except.seq_eq_ok_iff.mp h).1, Nat.zero_le _⟩
  | case4 n s f fs d ds e ih =>
    obtain ⟨hf, hfs⟩ := List.forall_mem_cons.mp hfs
    obtain ⟨s', hs', h⟩ := Except.bind_eq_ok_iff.mp h
    obtain ⟨hds, he, hlength⟩ := ih s' hfs h
    exact ⟨Doc.skipItems_cons_iff.mpr ⟨hf s hs', hds⟩, he, Nat.succ_le_succ hlength⟩

/-- A record is read through if its fields are. -/
theorem readsThrough_ofDoc (hr : r.ReadsThrough) : Decode.ReadsThrough r.ofDoc := by
  intro d s h
  unfold ofDoc at h
  split at h
  · obtain ⟨⟨s', seen⟩, hmembers, h⟩ := Except.bind_eq_ok_iff.mp h
    obtain ⟨he, -⟩ := Except.seq_eq_ok_iff.mp h
    exact Doc.skip_object_iff.mpr ⟨Decode.skipMembers_eq_ok (hr.ofMembers hmembers), he⟩
  · obtain ⟨hitems, he, -⟩ := ReadsThrough.ofItems hr h
    exact Doc.skip_array_iff.mpr ⟨hitems, he⟩
  · exact absurd h Decoded.mismatch_ne_ok

/-- **What is accepted is a document of the grammar**: an object with named members, or an array
with a field for each of its values. -/
theorem exists_text_of_ofJson (hr : r.ReadsThrough) {text : List Char} {s : σ}
    (h : r.ofJson text = .ok s) :
    (∃ ms, ObjectText ms text) ∨ ∃ vs, vs.length ≤ r.fields.length ∧ ArrayText vs text := by
  rw [ofJson, Decode.whole] at h
  obtain ⟨d, fault?, hread⟩ : ∃ d fault?, Doc.read text = (d, fault?) := ⟨_, _, rfl⟩
  rw [hread] at h
  obtain ⟨s', hdoc, h⟩ := Except.bind_eq_ok_iff.mp h
  cases fault? with
  | some f => cases h
  | none =>
    obtain ⟨a, cs, b, rfl, ha, hshows, hb⟩ :=
      Doc.exists_shows_of_read hread (readsThrough_ofDoc hr hdoc)
    unfold ofDoc at hdoc
    split at hdoc
    · obtain ⟨written, hobject, hkeys⟩ := hshows
      obtain ⟨⟨s'', seen⟩, hmembers, -⟩ := Except.bind_eq_ok_iff.mp hdoc
      obtain ⟨ms, hms⟩ := Doc.exists_isNamed hkeys fun m hm => (hr.ofMembers hmembers m hm).1
      exact .inl ⟨ms, .mk ha hobject hms hb⟩
    · obtain ⟨vs, harray⟩ := hshows
      have htext : ArrayText vs (a ++ (cs ++ b)) := .mk ha harray hb
      -- The values are those of the document, one for each item.
      obtain ⟨hitems, -⟩ := Prod.mk.inj (hread.symm.trans (Doc.read_arrayText htext))
      obtain ⟨rfl, -⟩ := Doc.array.inj hitems
      obtain ⟨-, -, hlength⟩ := ReadsThrough.ofItems hr hdoc
      rw [List.length_map] at hlength
      exact .inr ⟨vs, hlength, htext⟩
    · exact absurd hdoc Decoded.mismatch_ne_ok

end Record

/-! ### Configurations and settings -/

theorem Codec.readsThrough_block {r : Record σ} (h : r.ReadsThrough) :
    Decode.ReadsThrough (Codec.block r).ofDoc :=
  Decode.readsThrough_optional (Record.readsThrough_ofDoc h)

theorem Download.readsThrough : record.ReadsThrough := by
  repeat' first
    | exact List.forall_mem_nil _
    | refine List.forall_mem_cons.mpr ⟨Field.readsThrough_of ?_, ?_⟩
  all_goals first
    | exact Decode.readsThrough_text
    | exact Decode.readsThrough_bool

theorem Config.readsThrough : record.ReadsThrough := by
  repeat' first
    | exact List.forall_mem_nil _
    | refine List.forall_mem_cons.mpr ⟨Field.readsThrough_of ?_, ?_⟩
  all_goals first
    | exact Decode.readsThrough_bool
    | exact Decode.readsThrough_text
    | exact Decode.readsThrough_texts
    | exact Decode.readsThrough_stringMap
    | exact Codec.readsThrough_block Download.readsThrough

theorem Settings.readsThrough : record.ReadsThrough := by
  repeat' first
    | exact List.forall_mem_nil _
    | refine List.forall_mem_cons.mpr ⟨Field.readsThrough_of ?_, ?_⟩
  all_goals first
    | exact Decode.readsThrough_word
    | exact Decode.readsThrough_bool
    | exact Decode.readsThrough_text

end Capsule
