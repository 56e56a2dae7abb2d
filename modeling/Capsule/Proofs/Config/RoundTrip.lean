import Capsule.Config
import Capsule.Proofs.Json.Spelling
import Capsule.Proofs.Record

/-!
# Configurations are read back

A record is written and read by one table of fields, but by two parts of it: a codec writes a value
of the tree, and reads a document. This file proves that what is written is read back:
`Config.ofJson_printed`.

## The contract of a codec

`Codec.Restores` is all that is asked of a codec, and it is asked of values that are written at all:
a codec may leave values out. What a field that was left out comes to depends on the record it is
read into, and so `Field.Carries` follows the record from the defaults on, field after field. There
are no laws of parts to be assumed: where the record ends is computed from the table.

## A view of the record

The path of an image is in no table, and is lost. `Record.Restores` therefore speaks of a view of
the record that was written.

## Main definitions

* `Codec.Restores`, `Record.Restores`: what is written is read back
* `Field.Carries`: where reading the fields of a record leads

## Main results

* `Record.Restores.ofJson_of_spells`: every text of a record that is written is read back
* `Config.ofJson_printed`: a configuration in either layout
-/

namespace Capsule

variable {σ α : Type}

/-! ### Fields -/

/-- What is written has no numbers, and it is read back. -/
structure Codec.Restores (codec : Codec α) : Prop where
  numberFree {a : α} {v : Json} (written : codec.toJson? a = some v) : v.NumberFree
  ofDoc_ofJson {a : α} {v : Json} (written : codec.toJson? a = some v) :
    codec.ofDoc (.ofJson v) = .ok a

/-- Reading what is written of the fields of `c` leads from one record to another. -/
inductive Field.Carries (c : σ) : List (Field σ) → σ → σ → Prop
  | nil (s : σ) : Carries c [] s s
  | leftOut {f : Field σ} {fs : List (Field σ)} {s t : σ} (written : f.toJson? c = none)
      (others : Carries c fs s t) : Carries c (f :: fs) s t
  | written {f : Field σ} {fs : List (Field σ)} {s s' t : σ} {v : Json}
      (written : f.toJson? c = some v) (numberFree : v.NumberFree)
      (read : f.ofDoc (.ofJson v) s = .ok s') (others : Carries c fs s' t) :
      Carries c (f :: fs) s t

/-- A field puts its part of `c` in its place. Where it is left out, it must be in place already. -/
theorem Field.Carries.of {c s t : σ} {name : String} {codec : Codec α} {part : Part σ α}
    {fs : List (Field σ)} (hcodec : codec.Restores)
    (hnone : codec.toJson? (part.get c) = none → part.set (part.get c) s = s)
    (others : Carries c fs (part.set (part.get c) s) t) :
    Carries c (.of name codec part :: fs) s t := by
  cases h : codec.toJson? (part.get c) with
  | none =>
    rw [hnone h] at others
    exact .leftOut h others
  | some v =>
    refine .written h (hcodec.numberFree h) ?_ others
    show (codec.ofDoc (.ofJson v)).map (part.set · s) = _
    rw [hcodec.ofDoc_ofJson h]
    rfl

/-! ### Records -/

/-- What is read back of a record that was written is a view of it. -/
structure Record.Restores (r : Record σ) (view : σ → σ) : Prop where
  required : r.required = []
  names : (r.fields.map (·.name)).Nodup
  carries (c : σ) : Field.Carries c r.fields r.default (view c)

namespace Record

variable {r : Record σ} {view : σ → σ} {c s t : σ} {fs : List (Field σ)}

/-- The members that are written of some fields. -/
def members (fs : List (Field σ)) (c : σ) : List (String × Json) :=
  fs.filterMap fun f => (f.toJson? c).map fun v => (f.name, v)

theorem numberFree_members (h : Field.Carries c fs s t) :
    Json.NumberFreeMembers (members fs c) := by
  induction h with
  | nil => trivial
  | leftOut hwritten _ ih => rwa [members, List.filterMap_cons, hwritten]
  | written hwritten hfree _ _ ih =>
    rw [members, List.filterMap_cons, hwritten]
    exact ⟨hfree, ih⟩

/-- Fields with different names are not among those that were read before. -/
theorem name_not_mem_cons {f : Field σ} (hnames : (r.fields.map (·.name)).Nodup)
    (hfs : (f :: fs).Sublist r.fields) {seen : List String}
    (hseen : ∀ g ∈ f :: fs, g.name ∉ seen) : ∀ g ∈ fs, g.name ∉ f.name :: seen := by
  intro g hg h
  rcases List.mem_cons.mp h with h | h
  · exact (List.nodup_cons.mp (hnames.sublist (hfs.map _))).1 (h ▸ List.mem_map_of_mem hg)
  · exact hseen g (List.mem_cons_of_mem _ hg) h

/-- The members that are written are read in turn: each is known, and none was seen before. -/
theorem ofMembers_of_carries (hnames : (r.fields.map (·.name)).Nodup)
    (h : Field.Carries c fs s t) (hfs : fs.Sublist r.fields) {seen : List String}
    (hseen : ∀ f ∈ fs, f.name ∉ seen) :
    ∃ seen', r.ofMembers seen s (Doc.ofMembers (members fs c)) = .ok (t, seen') := by
  induction h generalizing seen with
  | nil s => exact ⟨seen, rfl⟩
  | leftOut hwritten _ ih =>
    rw [members, List.filterMap_cons, hwritten]
    exact ih ((List.sublist_cons_self ..).trans hfs) fun g hg =>
      hseen g (List.mem_cons_of_mem _ hg)
  | @written f fs s s' t v hwritten _ hread _ ih =>
    obtain ⟨seen', hrest⟩ := ih ((List.sublist_cons_self ..).trans hfs)
      (name_not_mem_cons hnames hfs hseen)
    refine ⟨seen', ?_⟩
    rw [members, List.filterMap_cons, hwritten]
    show r.ofMembers seen s ((.text (.ok f.name), .ofJson v) :: _) = _
    rw [ofMembers]
    simp only [Decode.leaf, field?_of_mem hnames (hfs.subset (List.mem_cons_self ..)),
      hseen f (List.mem_cons_self ..), hread, bind, Except.bind, if_false]
    exact hrest

theorem Restores.ofDoc_toJson (h : r.Restores view) (c : σ) :
    r.ofDoc (.ofJson (r.toJson c)) = .ok (view c) := by
  obtain ⟨seen, hmembers⟩ : ∃ seen, r.ofMembers [] r.default
      (Doc.ofMembers (members r.fields c)) = .ok (view c, seen) :=
    ofMembers_of_carries h.names (h.carries c) (.refl _) fun _ _ => List.not_mem_nil
  show r.ofDoc (.object (Doc.ofMembers (members r.fields c)) .closed) = _
  rw [ofDoc, hmembers]
  simp only [bind, Except.bind, Decode.ending, missing?, h.required]
  rfl

theorem Restores.numberFree (h : r.Restores view) (c : σ) : (r.toJson c).NumberFree :=
  numberFree_members (h.carries c)

/-- **What is written of a record is read back**, however it is spelled. -/
theorem Restores.ofJson_of_spells (h : r.Restores view) {c : σ} {cs : List Char}
    (hspells : Json.Spells (r.toJson c) cs) : r.ofJson cs = .ok (view c) := by
  rw [ofJson, Decode.whole, Doc.read_of_spells hspells]
  simp only [h.ofDoc_toJson, bind, Except.bind]
  rfl

end Record

/-! ### Codecs -/

namespace Codec

theorem restores_bool : bool.Restores where
  numberFree h := by
    cases h
    trivial
  ofDoc_ofJson h := by
    cases h
    rfl

theorem restores_text : text.Restores where
  numberFree h := by
    cases h
    trivial
  ofDoc_ofJson h := by
    cases h
    rfl

theorem numberFree_strings (ws : List String) : Json.NumberFreeItems (ws.map .string) := by
  induction ws with
  | nil => trivial
  | cons w ws ih => exact ⟨trivial, ih⟩

theorem mapM_text (ws : List String) :
    (Doc.ofItems (ws.map .string)).mapM Decode.text = .ok ws := by
  induction ws with
  | nil => rfl
  | cons w ws ih =>
    rw [List.map_cons, Doc.ofItems, List.mapM_cons, ih]
    rfl

theorem restores_texts : texts.Restores where
  numberFree h := by
    cases h
    exact numberFree_strings _
  ofDoc_ofJson {ws v} h := by
    cases h
    show Decode.texts (.array (Doc.ofItems (ws.map .string)) .closed) = .ok ws
    rw [Decode.texts, mapM_text]
    rfl

/-- The members that are written of the entries of a map. -/
def entryMembers (es : List (String × String)) : List (String × Json) :=
  es.map fun e => (e.1, .string e.2)

theorem numberFree_entryMembers (es : List (String × String)) :
    Json.NumberFreeMembers (entryMembers es) := by
  induction es with
  | nil => trivial
  | cons e es ih => exact ⟨trivial, ih⟩

theorem untypedMembers_entryMembers (room : Nat) (es : List (String × String))
    (soFar : List (String × Json)) :
    ∃ ms, Decode.untypedMembers room (Doc.ofMembers (entryMembers es)) soFar = .ok ms := by
  induction es generalizing soFar with
  | nil => exact ⟨soFar, rfl⟩
  | cons e es ih => exact ih (insertEntry e.1 (.string e.2) soFar)

/-- Members whose values are texts are those that are written of their entries. -/
theorem mapM_textMember?_eq_some_iff {members : List (Key × Doc)} {es : List (String × String)} :
    members.mapM textMember? = some es ↔ members = Doc.ofMembers (entryMembers es) := by
  have hwritten : Doc.ofMembers (entryMembers es) =
      es.map fun e => (.text (.ok e.1), .string (.ok e.2)) := by
    induction es with
    | nil => rfl
    | cons e es ih => exact congrArg _ ih
  rw [hwritten]
  refine Json.mapM_eq_some_iff_eq_map fun a b => ?_
  obtain ⟨k, v⟩ := b
  constructor
  · intro h
    unfold textMember? at h
    split at h
    · cases h
      rfl
    · cases h
  · rintro rfl
    rfl

theorem untypedIn_entryMembers (room : Nat) (es : List (String × String)) :
    ∃ j, Decode.untypedIn (room + 1) (.ofJson (.object (entryMembers es))) = .ok j := by
  obtain ⟨ms, hms⟩ := untypedMembers_entryMembers room es []
  refine ⟨.object ms, ?_⟩
  show Decode.untypedIn (room + 1) (.object (Doc.ofMembers (entryMembers es)) .closed) = _
  rw [Decode.untypedIn, hms]
  rfl

theorem textMap?_entryMembers (es : List (String × String)) :
    textMap? (.ofJson (.object (entryMembers es))) = some (TextMap.ofList es) := by
  show ((Doc.ofMembers (entryMembers es)).mapM textMember?).map _ = _
  rw [mapM_textMember?_eq_some_iff.mpr rfl, Option.map_some]

/-- A value that is read without its type, and has the shape of a map of texts, is read as one. -/
theorem decodeStringMap_of_read {d : Doc} {j : Json} {m : StringMap} (hnull : d ≠ .null)
    (hread : Decode.untypedIn (Decode.nestingLimit - 1) d = .ok j)
    (hmap : stringMapOf? d = some m) : decodeStringMap d = .ok m := by
  unfold decodeStringMap
  split
  · exact absurd rfl hnull
  · simp only [hread, hmap, bind, Except.bind]
    rfl

theorem decodeStringMap_entryMembers (es : List (String × String)) :
    decodeStringMap (.ofJson (.object (entryMembers es))) = .ok (TextMap.ofList es) := by
  obtain ⟨j, hread⟩ := untypedIn_entryMembers 125 es
  exact decodeStringMap_of_read nofun hread (textMap?_entryMembers es)

/-- The entries of a map are in order and have different keys, so none replaces another. -/
theorem restores_stringMap : stringMap.Restores where
  numberFree h := by
    cases h
    exact numberFree_entryMembers _
  ofDoc_ofJson {m v} h := by
    cases h
    have hread := decodeStringMap_entryMembers m.toList
    rwa [TextMap.ofList_toList] at hread

theorem restores_block {τ : Type} {r : Record τ} (h : r.Restores id) : (block r).Restores where
  numberFree hv := by
    obtain ⟨t, rfl, rfl⟩ := Option.map_eq_some_iff.mp hv
    exact h.numberFree t
  ofDoc_ofJson hv := by
    obtain ⟨t, rfl, rfl⟩ := Option.map_eq_some_iff.mp hv
    show (r.ofDoc (.ofJson (r.toJson t))).map some = _
    rw [h.ofDoc_toJson]
    rfl

end Codec

/-! ### Configurations -/

open Codec

theorem Download.restores_record : record.Restores id where
  required := rfl
  names := by decide
  carries d :=
    .of restores_text nofun <| .of restores_text nofun <| .of restores_bool nofun <|
      .of restores_text nofun <| .nil d

namespace Config

theorem restores_record : record.Restores fun c => { c with imagePath := none } where
  required := rfl
  names := by decide
  carries c := by
    -- A download is all that can be left out, and then it is left out of the defaults too.
    refine .of restores_bool nofun <| .of restores_bool nofun <| .of restores_bool nofun <|
      .of restores_bool nofun <| .of restores_bool nofun <| .of restores_texts nofun <|
      .of restores_text nofun <| .of restores_text nofun <|
      .of (restores_block Download.restores_record) (fun hleft => ?_) <|
      .of restores_text nofun <| .of restores_text nofun <| .of restores_text nofun <|
      .of restores_text nofun <| .of restores_text nofun <| .of restores_text nofun <|
      .of restores_text nofun <| .of restores_stringMap nofun <| .of restores_stringMap nofun <|
      .of restores_stringMap nofun <| .of restores_stringMap nofun <| .nil _
    have hnone : c.download = none := Option.map_eq_none_iff.mp hleft
    dsimp only
    rw [hnone]
    rfl

/-- **A configuration is read back** from its JSON text in either layout. Its image has to be found
again. -/
theorem ofJson_printed (c : Config) :
    ofJson c.toJson.compact.toList = .ok { c with imagePath := none } ∧
      ofJson c.toJson.pretty.toList = .ok { c with imagePath := none } := by
  have hfree : c.toJson.NumberFree := restores_record.numberFree c
  constructor
  · rw [Json.compact, String.toList_ofList]
    exact restores_record.ofJson_of_spells (Json.spells_compactChars _ hfree)
  · rw [Json.pretty, String.toList_ofList]
    exact restores_record.ofJson_of_spells (Json.spells_prettyChars 0 _ hfree)

end Config

end Capsule
