import Capsule.Proofs.Config.RoundTrip

/-!
# Settings that are maps of texts

Four settings of a configuration are maps of texts, and documents give them in two shapes: as one
map, or as a sequence of maps. This file says what the two have in common. Either shape stands for
a list of entries, and what is read is the map of that list, in which the last entry of a key wins;
a value that stands for no list of entries is not read, and then its document is none.

## Lists of entries

`Json.ListsTexts` and `Yaml.Document.ListsTexts` say which list a value stands for, with repeated
keys in their places. The reader makes a map of each part of a sequence first and then one of all of
them, so that a key may be repeated on two levels; what it comes to is the map of the whole list
(`TextMap.merge_map_ofList`). Two lists give the same map exactly if they have the same last entries
(`TextMap.ofList_eq_ofList_iff`).

A node of a YAML document may be an alias, and the reader follows it once. That is enough, since a
node with an anchor is no alias itself (`Yaml.Anchors.NoAliases`).

## From a value to its document

The other fields of the document are arbitrary, and need not be readable. That they do not interfere
is said of any record in `Capsule.Proofs.Record`; all it asks here is that each setting has a part
of the configuration of its own (`MapSetting.owns`).

## Main definitions

* `Json.ListsTexts`, `Yaml.Document.ListsTexts`: the entries that a value stands for
* `MapSetting`: the settings

## Main results

* `Codec.decodeStringMap_eq_ok_iff`, `Yaml.Document.stringMap_ofNode?_eq_some_iff`: what is read is
  the map of these entries, and nothing else is read
* `Config.stringMaps_by_entries`: nothing but the last entries of a setting matters
-/

namespace Capsule

open Codec (entryMembers)

/-! ### Lists of entries in JSON -/

/-- A value stands for a list of entries, in their order: none of them, those of one map, or those
of several maps one behind the other. -/
inductive Json.ListsTexts : Json → List (String × String) → Prop
  | null : ListsTexts .null []
  | map (es : List (String × String)) : ListsTexts (.object (entryMembers es)) es
  | sequence (groups : List (List (String × String))) :
      ListsTexts (.array (groups.map fun es => .object (entryMembers es))) groups.flatten

/-! ### Values without a type -/

namespace Decode

theorem closed_of_ending {e : Ending} (h : ending e = .ok ()) : e = .closed := by
  cases e with
  | closed => rfl
  | missing | afterComma => cases h

/-- An array that is read at all is closed, and its items are read. -/
theorem untypedIn_array_eq_ok {room : Nat} {items : List Doc} {e : Ending} {j : Json}
    (h : untypedIn room (.array items e) = .ok j) :
    e = .closed ∧ ∃ room' js, untypedItems room' items = .ok js := by
  cases room with
  | zero => cases h
  | succ room =>
    rw [untypedIn] at h
    obtain ⟨js, hitems, h⟩ := Except.bind_eq_ok_iff.mp h
    obtain ⟨_, hclosed, -⟩ := Except.bind_eq_ok_iff.mp h
    exact ⟨closed_of_ending hclosed, room, js, hitems⟩

/-- An object that is read at all is closed. -/
theorem untypedIn_object_eq_ok {room : Nat} {members : List (Key × Doc)} {e : Ending} {j : Json}
    (h : untypedIn room (.object members e) = .ok j) : e = .closed := by
  cases room with
  | zero => cases h
  | succ room =>
    rw [untypedIn] at h
    obtain ⟨ms, -, h⟩ := Except.bind_eq_ok_iff.mp h
    obtain ⟨_, hclosed, -⟩ := Except.bind_eq_ok_iff.mp h
    exact closed_of_ending hclosed

end Decode

namespace Codec

variable {d : Doc} {m : StringMap}

/-- A value that is read as one map of texts is the object of its entries, and it is closed. -/
theorem exists_entries_of_textMap? {room : Nat} {j : Json}
    (hread : Decode.untypedIn room d = .ok j) (h : textMap? d = some m) :
    ∃ es, d = .ofJson (.object (entryMembers es)) ∧ m = TextMap.ofList es := by
  cases d with
  | object members e =>
    obtain rfl := Decode.untypedIn_object_eq_ok hread
    obtain ⟨es, hes, rfl⟩ := Option.map_eq_some_iff.mp h
    obtain rfl := mapM_textMember?_eq_some_iff.mp hes
    exact ⟨es, rfl, rfl⟩
  | _ => cases h

theorem exists_groups_of_textMap? {room : Nat} {items : List Doc} {js : List Json}
    {maps : List StringMap} (hread : Decode.untypedItems room items = .ok js)
    (h : items.mapM textMap? = some maps) :
    ∃ groups : List (List (String × String)),
      items = Doc.ofItems (groups.map fun es => .object (entryMembers es)) ∧
        maps = groups.map TextMap.ofList := by
  induction items generalizing js maps with
  | nil =>
    cases h
    exact ⟨[], rfl, rfl⟩
  | cons d items ih =>
    obtain ⟨j, hd, hread⟩ := Except.bind_eq_ok_iff.mp hread
    obtain ⟨js, hitems, -⟩ := Except.bind_eq_ok_iff.mp hread
    rw [List.mapM_cons] at h
    obtain ⟨m, hm, h⟩ := Option.bind_eq_some_iff.mp h
    obtain ⟨maps, hmaps, h⟩ := Option.bind_eq_some_iff.mp h
    cases h
    obtain ⟨es, rfl, rfl⟩ := exists_entries_of_textMap? hd hm
    obtain ⟨groups, rfl, rfl⟩ := ih hitems hmaps
    exact ⟨es :: groups, rfl, rfl⟩

theorem untypedItems_groups (room : Nat) (groups : List (List (String × String))) :
    ∃ js, Decode.untypedItems (room + 1)
      (Doc.ofItems (groups.map fun es => .object (entryMembers es))) = .ok js := by
  induction groups with
  | nil => exact ⟨[], rfl⟩
  | cons es groups ih =>
    obtain ⟨j, hj⟩ := untypedIn_entryMembers room es
    obtain ⟨js, hjs⟩ := ih
    exact ⟨j :: js, by rw [List.map_cons, Doc.ofItems, Decode.untypedItems, hj, hjs]; rfl⟩

theorem mapM_textMap?_groups (groups : List (List (String × String))) :
    (Doc.ofItems (groups.map fun es => .object (entryMembers es))).mapM textMap? =
      some (groups.map TextMap.ofList) := by
  induction groups with
  | nil => rfl
  | cons es groups ih =>
    rw [List.map_cons, Doc.ofItems, List.mapM_cons, textMap?_entryMembers, ih]
    rfl

/-- What is read as a map of texts is the map of a list of entries. -/
theorem exists_lists_of_decodeStringMap (h : decodeStringMap d = .ok m) :
    ∃ j es, d = .ofJson j ∧ j.ListsTexts es ∧ m = TextMap.ofList es := by
  unfold decodeStringMap at h
  split at h
  · cases h
    exact ⟨.null, [], rfl, .null, rfl⟩
  · obtain ⟨j, hread, h⟩ := Except.bind_eq_ok_iff.mp h
    split at h
    · rename_i hmap
      cases h
      unfold stringMapOf? at hmap
      split at hmap
      · obtain ⟨maps, hmaps, rfl⟩ := Option.map_eq_some_iff.mp hmap
        obtain ⟨rfl, room, js, hitems⟩ := Decode.untypedIn_array_eq_ok hread
        obtain ⟨groups, rfl, rfl⟩ := exists_groups_of_textMap? hitems hmaps
        exact ⟨_, _, rfl, .sequence groups, TextMap.merge_map_ofList groups⟩
      · obtain ⟨es, rfl, rfl⟩ := exists_entries_of_textMap? hread hmap
        exact ⟨_, es, rfl, .map es, rfl⟩
    · cases h

/-- **What is read is the map of the entries that a value stands for**, and nothing else is read. -/
theorem decodeStringMap_eq_ok_iff :
    decodeStringMap d = .ok m ↔
      ∃ j es, d = .ofJson j ∧ j.ListsTexts es ∧ m = TextMap.ofList es := by
  refine ⟨exists_lists_of_decodeStringMap, ?_⟩
  rintro ⟨j, es, rfl, hlists, rfl⟩
  cases hlists with
  | null => rfl
  | map es => exact decodeStringMap_entryMembers es
  | sequence groups =>
    obtain ⟨js, hjs⟩ := untypedItems_groups 124 groups
    refine decodeStringMap_of_read (j := .array js) nofun ?_ ?_
    · show Decode.untypedIn (125 + 1) (.array _ .closed) = _
      rw [Decode.untypedIn, hjs]
      rfl
    · show ((Doc.ofItems _).mapM textMap?).map _ = _
      rw [mapM_textMap?_groups, Option.map_some, TextMap.merge_map_ofList]

end Codec

/-! ### Lists of entries in YAML -/

/-- A list is read if each of its items is. -/
theorem List.mapM_eq_some_iff_forall₂ {α β : Type} {f : α → Option β} {as : List α}
    {bs : List β} : as.mapM f = some bs ↔ List.Forall₂ (fun a b => f a = some b) as bs := by
  induction as generalizing bs with
  | nil => cases bs <;> simp
  | cons a as ih =>
    cases bs with
    | nil => simp [Option.bind_eq_some_iff]
    | cons b bs => simp [Option.bind_eq_some_iff, ih]

namespace Yaml

/-- No anchored node that is complete is an alias. -/
def Anchors.NoAliases (a : Anchors) : Prop := ∀ e ∈ a.complete, ∀ target, e.2 ≠ .alias target

namespace Anchors

variable {a a' : Anchors}

theorem noAliases_leave (h : a.NoAliases) (before : Nat) (anchor : Option (List Char))
    {node : Node Nat} (hnode : ∀ target, node ≠ .alias target) :
    (a.leave before anchor node).NoAliases := by
  rw [leave]
  split
  · exact List.forall_mem_cons.mpr ⟨hnode, h⟩
  · exact h

theorem noAliases_enter (h : a.NoAliases) (anchor : Option (List Char)) :
    (a.enter anchor).NoAliases := by
  cases anchor <;> exact h

mutual

/-- An alias has no anchor of its own, so nothing that is anchored is one. -/
theorem noAliases_resolve {a a' : Anchors} (h : a.NoAliases) : ∀ {node : Node (List Char)}
    {node' : Node Nat}, a.resolve node = some (node', a') → a'.NoAliases
  | .alias name, node', hr => by
    obtain ⟨number, -, hr⟩ := Option.bind_eq_some_iff.mp hr
    cases hr
    exact h
  | .scalar p style text, node', hr => by
    cases hr
    exact noAliases_leave (noAliases_enter h _) _ _ nofun
  | .sequence p items, node', hr => by
    obtain ⟨⟨items', a₁⟩, hitems, hr⟩ := Option.bind_eq_some_iff.mp hr
    cases hr
    exact noAliases_leave (noAliases_resolveItems (noAliases_enter h _) hitems) _ _ nofun
  | .mapping p entries, node', hr => by
    obtain ⟨⟨entries', a₁⟩, hentries, hr⟩ := Option.bind_eq_some_iff.mp hr
    cases hr
    exact noAliases_leave (noAliases_resolveEntries (noAliases_enter h _) hentries) _ _ nofun

theorem noAliases_resolveItems {a a' : Anchors} (h : a.NoAliases) :
    ∀ {items : List (Node (List Char))} {items' : List (Node Nat)},
      a.resolveItems items = some (items', a') → a'.NoAliases
  | [], items', hr => by
    cases hr
    exact h
  | x :: xs, items', hr => by
    obtain ⟨⟨x', a₁⟩, hx, hr⟩ := Option.bind_eq_some_iff.mp hr
    obtain ⟨⟨xs', a₂⟩, hxs, hr⟩ := Option.bind_eq_some_iff.mp hr
    cases hr
    exact noAliases_resolveItems (noAliases_resolve h hx) hxs

theorem noAliases_resolveEntries {a a' : Anchors} (h : a.NoAliases) :
    ∀ {entries : List (Node (List Char) × Node (List Char))}
      {entries' : List (Node Nat × Node Nat)},
      a.resolveEntries entries = some (entries', a') → a'.NoAliases
  | [], entries', hr => by
    cases hr
    exact h
  | (k, v) :: es, entries', hr => by
    obtain ⟨⟨k', a₁⟩, hk, hr⟩ := Option.bind_eq_some_iff.mp hr
    obtain ⟨⟨v', a₂⟩, hv, hr⟩ := Option.bind_eq_some_iff.mp hr
    obtain ⟨⟨es', a₃⟩, hes, hr⟩ := Option.bind_eq_some_iff.mp hr
    cases hr
    exact noAliases_resolveEntries (noAliases_resolve (noAliases_resolve h hk) hv) hes

end

end Anchors

namespace Document

/-- A node is a mapping from texts to texts, with the given entries. -/
def IsTextMap (y : Document) (n : Node Nat) (es : List (String × String)) : Prop :=
  ∃ p entries, y.deref n = some (.mapping p entries) ∧ isForeign p = false ∧
    List.Forall₂ (fun e t => y.typedText? e.1 = some t.1 ∧ y.typedText? e.2 = some t.2) entries es

/-- A node stands for a list of entries, in their order: none of them, those of one mapping, or
those of several mappings one behind the other. -/
inductive ListsTexts (y : Document) (n : Node Nat) : List (String × String) → Prop
  | absent {node : Node Nat} (node_eq : y.deref n = some node)
      (absent : isPresent? node = some false) : ListsTexts y n []
  | map {es : List (String × String)} (entries : y.IsTextMap n es) : ListsTexts y n es
  | sequence {p : Properties} {items : List (Node Nat)} {groups : List (List (String × String))}
      (node_eq : y.deref n = some (.sequence p items)) (own : isForeign p = false)
      (entries : List.Forall₂ y.IsTextMap items groups) : ListsTexts y n groups.flatten

variable {y : Document} {n node : Node Nat} {es : List (String × String)} {m : StringMap}

/-- Following an alias leads to no other alias. -/
theorem deref_of_deref (hy : y.anchors.NoAliases) (h : y.deref n = some node) :
    y.deref node = some node := by
  have hnode : ∀ target, node ≠ .alias target := by
    cases n with
    | «alias» number =>
      have h : y.anchors.node? number = some node := h
      rw [Anchors.node?] at h
      split at h
      · cases h
      · obtain ⟨before, behind, hcomplete, -⟩ := List.lookup_eq_some_iff.mp h
        exact hy _ (hcomplete ▸ List.mem_append_right _ (List.mem_cons_self ..))
    | _ =>
      cases h
      nofun
  cases node with
  | «alias» target => exact absurd rfl (hnode target)
  | _ => rfl

theorem noAliases_ofText? {text : List Char} (h : ofText? text = some y) :
    y.anchors.NoAliases := by
  obtain ⟨ts, -, h⟩ := Option.bind_eq_some_iff.mp h
  obtain ⟨node, -, h⟩ := Option.bind_eq_some_iff.mp h
  cases node with
  | none =>
    cases h
    exact List.forall_mem_nil _
  | some node =>
    obtain ⟨⟨root, anchors⟩, hresolve, h⟩ := Option.bind_eq_some_iff.mp h
    cases h
    exact Anchors.noAliases_resolve (a := {}) (List.forall_mem_nil _) hresolve

/-- What is read as one map is the map of the entries of a mapping. -/
theorem textMap?_eq_some_iff :
    y.textMap? n = some m ↔ ∃ es, y.IsTextMap n es ∧ m = TextMap.ofList es := by
  have hentry : ∀ (e : Node Nat × Node Nat) (t : String × String), y.typedPair? e = some t ↔
      y.typedText? e.1 = some t.1 ∧ y.typedText? e.2 = some t.2 := by
    rintro e ⟨k, v⟩
    simp [typedPair?, Option.bind_eq_some_iff]
  have hentries : ∀ entries es, entries.mapM y.typedPair? = some es ↔
      List.Forall₂ (fun e t => y.typedText? e.1 = some t.1 ∧ y.typedText? e.2 = some t.2)
        entries es := by
    intro entries es
    simp only [List.mapM_eq_some_iff_forall₂, hentry]
  constructor
  · intro h
    obtain ⟨node, hnode, h⟩ := Option.bind_eq_some_iff.mp h
    split at h
    · rename_i p entries
      cases hp : isForeign p with
      | true => simp [hp] at h
      | false =>
        rw [hp] at h
        obtain ⟨es, hes, rfl⟩ := Option.map_eq_some_iff.mp h
        exact ⟨es, ⟨p, entries, hnode, hp, (hentries ..).mp hes⟩, rfl⟩
    · cases h
  · rintro ⟨es, ⟨p, entries, hnode, hp, hes⟩, rfl⟩
    rw [textMap?, hnode]
    show (if isForeign p then none else (entries.mapM y.typedPair?).map TextMap.ofList) = _
    rw [hp, (hentries ..).mpr hes]
    rfl

theorem mapM_textMap?_eq_some_iff {items : List (Node Nat)} {maps : List StringMap} :
    items.mapM y.textMap? = some maps ↔
      ∃ groups, List.Forall₂ y.IsTextMap items groups ∧ maps = groups.map TextMap.ofList := by
  simp only [List.mapM_eq_some_iff_forall₂, textMap?_eq_some_iff]
  constructor
  · intro h
    induction h with
    | nil => exact ⟨[], .nil, rfl⟩
    | cons h _ ih =>
      obtain ⟨es, hes, rfl⟩ := h
      obtain ⟨groups, hgroups, rfl⟩ := ih
      exact ⟨es :: groups, .cons hes hgroups, rfl⟩
  · rintro ⟨groups, hgroups, rfl⟩
    exact List.forall₂_map_right_iff.mpr (hgroups.imp fun _ es h => ⟨es, h, rfl⟩)

/-- What a node that is there is read as. -/
theorem stringMap?_eq_some_iff (hnode : y.deref n = some node) (hsame : y.deref node = some node) :
    y.stringMap? node = some m ↔
      (∃ es, y.IsTextMap n es ∧ m = TextMap.ofList es) ∨
        ∃ p items groups, node = .sequence p items ∧ isForeign p = false ∧
          List.Forall₂ y.IsTextMap items groups ∧ m = TextMap.ofList groups.flatten := by
  have hmap : (∀ p items, node ≠ .sequence p items) → y.stringMap? node = y.textMap? node := by
    intro hne
    rw [stringMap?, hsame]
    cases node with
    | sequence p items => exact absurd rfl (hne p items)
    | _ => rfl
  have hentries : ∀ es, y.IsTextMap node es ↔ y.IsTextMap n es := by
    intro es
    rw [IsTextMap, IsTextMap, hnode, hsame]
  cases node with
  | sequence p items =>
    have hread : y.stringMap? (.sequence p items) =
        if isForeign p then none else (items.mapM y.textMap?).map TextMap.merge := rfl
    have hno : ¬ ∃ es, y.IsTextMap n es ∧ m = TextMap.ofList es := by
      rintro ⟨_, ⟨_, _, hmapping, -⟩, -⟩
      cases hnode.symm.trans hmapping
    rw [hread, or_iff_right hno]
    constructor
    · intro h
      cases hp : isForeign p with
      | true => simp [hp] at h
      | false =>
        rw [hp] at h
        obtain ⟨maps, hmaps, rfl⟩ := Option.map_eq_some_iff.mp h
        obtain ⟨groups, hgroups, rfl⟩ := mapM_textMap?_eq_some_iff.mp hmaps
        exact ⟨p, items, groups, rfl, hp, hgroups, TextMap.merge_map_ofList groups⟩
    · rintro ⟨p, items, groups, ⟨⟩, hp, hgroups, rfl⟩
      rw [hp, mapM_textMap?_eq_some_iff.mpr ⟨groups, hgroups, rfl⟩]
      exact congrArg some (TextMap.merge_map_ofList groups)
  | _ =>
    rw [hmap nofun, textMap?_eq_some_iff, or_iff_left (by rintro ⟨_, _, _, ⟨⟩, -⟩)]
    exact exists_congr fun es => and_congr_left' (hentries es)

/-- **What is read is the map of the entries that a node stands for**, and nothing else is read. -/
theorem stringMap_ofNode?_eq_some_iff (hy : y.anchors.NoAliases) :
    Codec.stringMap.ofNode? y n = some m ↔ ∃ es, y.ListsTexts n es ∧ m = TextMap.ofList es := by
  have hread : Codec.stringMap.ofNode? y n = (y.deref n).bind fun node =>
      (isPresent? node).bind fun present =>
        if present then y.stringMap? node else some .empty := by
    show (y.optional? y.stringMap? n).map (·.getD .empty) = _
    rw [optional?]
    cases y.deref n with
    | none => rfl
    | some node =>
      simp only [Option.bind_eq_bind, Option.bind_some]
      cases isPresent? node with
      | none => rfl
      | some present =>
        cases present with
        | false => rfl
        | true =>
          simp only [Option.bind_some, if_true]
          cases y.stringMap? node <;> rfl
  rw [hread]
  constructor
  · intro h
    obtain ⟨node, hnode, h⟩ := Option.bind_eq_some_iff.mp h
    obtain ⟨present, hpresent, h⟩ := Option.bind_eq_some_iff.mp h
    cases present with
    | false =>
      cases h
      exact ⟨[], .absent hnode hpresent, rfl⟩
    | true =>
      rcases (stringMap?_eq_some_iff hnode (deref_of_deref hy hnode)).mp h with
        ⟨es, hes, rfl⟩ | ⟨p, items, groups, rfl, hp, hgroups, rfl⟩
      · exact ⟨es, .map hes, rfl⟩
      · exact ⟨_, .sequence hnode hp hgroups, rfl⟩
  · rintro ⟨es, hlists, rfl⟩
    cases hlists with
    | absent hnode habsent =>
      rw [hnode, Option.bind_some, habsent]
      rfl
    | map hes =>
      obtain ⟨p, entries, hnode, -⟩ := id hes
      rw [hnode, Option.bind_some]
      exact (stringMap?_eq_some_iff hnode rfl).mpr (.inl ⟨es, hes, rfl⟩)
    | sequence hnode hp hgroups =>
      rw [hnode, Option.bind_some]
      exact (stringMap?_eq_some_iff hnode rfl).mpr (.inr ⟨_, _, _, rfl, hp, hgroups, rfl⟩)

end Document

end Yaml

/-! ### The settings -/

/-- The settings that are maps of texts. -/
inductive MapSetting
  | bind
  | bindReadOnly
  | environment
  | properties
deriving DecidableEq, Repr

namespace MapSetting

/-- The name of a setting in documents. -/
def name : MapSetting → String
  | .bind => "bind"
  | .bindReadOnly => "bind_read_only"
  | .environment => "environment"
  | .properties => "properties"

/-- The part of a configuration that a setting is. -/
def part : MapSetting → Part Config StringMap
  | .bind => ⟨(·.bind), fun v c => { c with bind := v }⟩
  | .bindReadOnly => ⟨(·.bindReadOnly), fun v c => { c with bindReadOnly := v }⟩
  | .environment => ⟨(·.environment), fun v c => { c with environment := v }⟩
  | .properties => ⟨(·.properties), fun v c => { c with properties := v }⟩

/-- The place of a setting in the table. -/
def place : MapSetting → Nat
  | .bind => 16
  | .bindReadOnly => 17
  | .environment => 18
  | .properties => 19

/-- Each setting has a part of the configuration of its own. -/
theorem owns (m : MapSetting) : Config.record.Owns m.name Codec.stringMap m.part where
  names := by decide
  get_set a c := by cases m <;> rfl
  keeps := by
    have hfields : Config.record.fields = Config.record.fields.take m.place ++
        .of m.name Codec.stringMap m.part :: Config.record.fields.drop (m.place + 1) := by
      cases m <;> rfl
    refine ⟨_, _, hfields, ?_⟩
    cases m
    all_goals
      iterate 19 refine List.forall_mem_cons.mpr ⟨Field.keeps_of fun _ _ => rfl, ?_⟩
      exact List.forall_mem_nil _

end MapSetting

namespace Config

open Record (Swaps SwapsNodes Gives GivesNode)

/-- **Maps of texts are read by their entries.** Whether a setting is given as one map or as several
does not matter, nor does anything but the last entry of each key: two documents that differ in
nothing else are the same configuration, or the same problem. Where a document is a configuration,
the setting is the map of the entries that it is given as, in which the last entry of a key wins; so
a document is none if a setting is given as anything but entries of texts. A setting that is given
as `null`, as no entries or not at all is the empty map. Entries may change places for as long as
those of each key do not. -/
theorem stringMaps_by_entries (m : MapSetting) :
    (∀ text text' j j' es es', j.ListsTexts es → j'.ListsTexts es' →
      (∀ k, TextMap.lastOf? k es = TextMap.lastOf? k es') →
      record.Swaps m.name (.ofJson j) (.ofJson j') (Doc.read text).1 (Doc.read text').1 →
      (Doc.read text).2 = (Doc.read text').2 → ofJson text = ofJson text') ∧
    (∀ text c, ofJson text = .ok c →
      (∀ d, record.Gives m.name d (Doc.read text).1 →
        ∃ j es, d = .ofJson j ∧ j.ListsTexts es ∧ m.part.get c = TextMap.ofList es) ∧
      ((∀ d, ¬ record.Gives m.name d (Doc.read text).1) → m.part.get c = .empty)) ∧
    (∀ text text' y y' n n' es es', Yaml.Document.ofText? text = some y →
      Yaml.Document.ofText? text' = some y' → y.ListsTexts n es → y'.ListsTexts n' es' →
      (∀ k, TextMap.lastOf? k es = TextMap.lastOf? k es') →
      record.SwapsNodes m.name n n' y y' → ofYaml? text = ofYaml? text') ∧
    (∀ text y c, Yaml.Document.ofText? text = some y → ofYaml? text = some c →
      (∀ n, GivesNode m.name y n → ∃ es, y.ListsTexts n es ∧ m.part.get c = TextMap.ofList es) ∧
      ((∀ n, ¬ GivesNode m.name y n) → m.part.get c = .empty)) ∧
    (∀ es : List (String × String), ∀ k, (TextMap.ofList es).get? k = TextMap.lastOf? k es) ∧
    ∀ es es' : List (String × String),
      (∀ k, es.filter (·.1 == k) = es'.filter (·.1 == k)) →
      ∀ k, TextMap.lastOf? k es = TextMap.lastOf? k es' := by
  have hdefault : m.part.get record.default = .empty := by cases m <;> rfl
  refine ⟨?_, fun text c h => ?_, ?_, fun text y c hy h => ?_, TextMap.get?_ofList,
    fun es es' h k => ?_⟩
  · intro text text' j j' es es' hj hj' hes hswaps hrest
    have hread := Codec.decodeStringMap_eq_ok_iff.mpr ⟨j, es, rfl, hj, rfl⟩
    have hread' := Codec.decodeStringMap_eq_ok_iff.mpr ⟨j', es', rfl, hj', rfl⟩
    rw [← TextMap.ofList_eq_ofList_iff.mpr hes] at hread'
    have hdoc := m.owns.ofDoc_of_swaps (hread.trans hread'.symm) hswaps
    rw [ofJson, ofJson, Record.ofJson, Record.ofJson, Decode.whole, Decode.whole]
    dsimp only
    rw [hdoc, hrest]
  · have hdoc := Record.ofDoc_of_ofJson h
    refine ⟨fun d hd => ?_, fun hd => ?_⟩
    · obtain ⟨a, ha, hget⟩ := m.owns.get_ofDoc hdoc hd
      obtain ⟨j, es, rfl, hes, rfl⟩ := Codec.decodeStringMap_eq_ok_iff.mp ha
      exact ⟨j, es, rfl, hes, hget⟩
    · rw [m.owns.get_ofDoc_of_not_gives hdoc hd, hdefault]
  · intro text text' y y' n n' es es' hy hy' hn hn' hes hswaps
    refine m.owns.ofYaml?_of_swapsNodes hy hy' ?_ hswaps
    have hread := (Yaml.Document.stringMap_ofNode?_eq_some_iff
      (Yaml.Document.noAliases_ofText? hy)).mpr ⟨es, hn, rfl⟩
    have hread' := (Yaml.Document.stringMap_ofNode?_eq_some_iff
      (Yaml.Document.noAliases_ofText? hy')).mpr ⟨es', hn', rfl⟩
    rw [hread, hread', TextMap.ofList_eq_ofList_iff.mpr hes]
  · refine ⟨fun n hn => ?_, fun hn => ?_⟩
    · obtain ⟨a, ha, hget⟩ := m.owns.get_ofYaml? hy h hn
      obtain ⟨es, hes, rfl⟩ := (Yaml.Document.stringMap_ofNode?_eq_some_iff
        (Yaml.Document.noAliases_ofText? hy)).mp ha
      exact ⟨es, hes, hget⟩
    · rw [m.owns.get_ofYaml?_of_not_gives hy h hn, hdefault]
  · rw [← TextMap.lastOf?_filter, h, TextMap.lastOf?_filter]

/-- A scalar as it stands in a text. -/
def plain (text : String) : Yaml.Node Nat := .scalar {} .plain text.toList

/-- A YAML text that gives a setting as a sequence. -/
theorem ofText?_grouped : Yaml.Document.ofText? "bind: [\x7ba: b\x7d, \x7ba: c\x7d]".toList =
    some ⟨some (.mapping {} [(plain "bind", .sequence {}
      [.mapping {} [(plain "a", plain "b")], .mapping {} [(plain "a", plain "c")]])]), {}⟩ := by
  have htokens : Yaml.Token.ofText? "bind: [\x7ba: b\x7d, \x7ba: c\x7d]".toList =
      some [.blockMappingStart, .key, .scalar .plain "bind".toList, .value, .flowSequenceStart,
        .flowMappingStart, .key, .scalar .plain "a".toList, .value, .scalar .plain "b".toList,
        .flowMappingEnd, .flowEntry,
        .flowMappingStart, .key, .scalar .plain "a".toList, .value, .scalar .plain "c".toList,
        .flowMappingEnd, .flowSequenceEnd, .blockEnd] := by
    decide +kernel
  rw [Yaml.Document.ofText?, htokens]
  rfl

/-- A YAML text that gives it as one map. -/
theorem ofText?_flat : Yaml.Document.ofText? "bind: \x7ba: b, a: c\x7d".toList =
    some ⟨some (.mapping {} [(plain "bind",
      .mapping {} [(plain "a", plain "b"), (plain "a", plain "c")])]), {}⟩ := by
  have htokens : Yaml.Token.ofText? "bind: \x7ba: b, a: c\x7d".toList =
      some [.blockMappingStart, .key, .scalar .plain "bind".toList, .value,
        .flowMappingStart, .key, .scalar .plain "a".toList, .value, .scalar .plain "b".toList,
        .flowEntry, .key, .scalar .plain "a".toList, .value, .scalar .plain "c".toList,
        .flowMappingEnd, .blockEnd] := by
    decide +kernel
  rw [Yaml.Document.ofText?, htokens]
  rfl

/-- A sequence of maps and the one map of their entries, in either format. -/
theorem stringMaps_by_entries_grouped :
    let grouped := Json.object
      [("environment", .array [.object [("A", .string "1")], .object [("A", .string "2")]])]
    let flat := Json.object
      [("environment", .object [("A", .string "1"), ("A", .string "2")])]
    ofJson grouped.compact.toList = ofJson flat.compact.toList ∧
      (∃ c, ofJson flat.compact.toList = .ok c ∧ c.environment.get? "A" = some "2") ∧
      ofYaml? "bind: [\x7ba: b\x7d, \x7ba: c\x7d]".toList =
        ofYaml? "bind: \x7ba: b, a: c\x7d".toList ∧
      ∃ c, ofYaml? "bind: \x7ba: b, a: c\x7d".toList = some c ∧ c.bind.get? "a" = some "c" := by
  intro grouped flat
  obtain ⟨hdocs, hvalue, -⟩ := stringMaps_by_entries .environment
  obtain ⟨-, -, hnodes, hnode, -⟩ := stringMaps_by_entries .bind
  have hread : ∀ j : Json, j.NumberFree → Doc.read j.compact.toList = (.ofJson j, none) := by
    intro j hj
    rw [Json.compact, String.toList_ofList, Doc.read_of_spells (Json.spells_compactChars j hj)]
  have hgrouped : Doc.read grouped.compact.toList = (.ofJson grouped, none) :=
    hread _ (by simp [grouped, Json.NumberFree, Json.NumberFreeMembers, Json.NumberFreeItems])
  have hflat : Doc.read flat.compact.toList = (.ofJson flat, none) :=
    hread _ (by simp [flat, Json.NumberFree, Json.NumberFreeMembers])
  have hmapping (y : Yaml.Document) : y.ListsTexts
      (.mapping {} [(plain "a", plain "b"), (plain "a", plain "c")]) [("a", "b"), ("a", "c")] :=
    .map ⟨_, _, rfl, rfl, .cons ⟨rfl, rfl⟩ (.cons ⟨rfl, rfl⟩ .nil)⟩
  have hfirst (y : Yaml.Document) :
      y.IsTextMap (.mapping {} [(plain "a", plain "b")]) [("a", "b")] :=
    ⟨_, _, rfl, rfl, .cons ⟨rfl, rfl⟩ .nil⟩
  have hsecond (y : Yaml.Document) :
      y.IsTextMap (.mapping {} [(plain "a", plain "c")]) [("a", "c")] :=
    ⟨_, _, rfl, rfl, .cons ⟨rfl, rfl⟩ .nil⟩
  have hsequence (y : Yaml.Document) : y.ListsTexts (.sequence {}
      [.mapping {} [(plain "a", plain "b")], .mapping {} [(plain "a", plain "c")]])
      [[("a", "b")], [("a", "c")]].flatten :=
    .sequence rfl rfl (.cons (hfirst y) (.cons (hsecond y) .nil))
  refine ⟨?_, ?_, ?_, ?_⟩
  · refine hdocs _ _ _ _ _ _ (.sequence [[("A", "1")], [("A", "2")]])
      (.map [("A", "1"), ("A", "2")]) (fun _ => rfl) ?_ (by rw [hgrouped, hflat])
    rw [hgrouped, hflat]
    exact .member [] [] .closed
  · obtain ⟨c, hc⟩ : ∃ c, ofJson flat.compact.toList = .ok c := by
      rw [ofJson, Record.ofJson, Decode.whole, hflat]
      exact ⟨_, rfl⟩
    refine ⟨c, hc, ?_⟩
    obtain ⟨j, es, hj, hes, hget⟩ := (hvalue _ c hc).1 _
      (by rw [hflat]; exact .member (List.mem_cons_self ..) _)
    have hmap := Codec.decodeStringMap_eq_ok_iff.mpr ⟨j, es, hj, hes, rfl⟩
    have hother := Codec.decodeStringMap_eq_ok_iff.mpr
      ⟨_, _, rfl, .map [("A", "1"), ("A", "2")], rfl⟩
    rw [show c.environment = TextMap.ofList es from hget, Except.ok.inj (hmap.symm.trans hother)]
    rfl
  · refine hnodes _ _ _ _ _ _ _ _ ofText?_grouped ofText?_flat (hsequence _) (hmapping _)
      (fun _ => rfl) ?_
    exact ⟨_, _, _, _, [], [], [], [], _, _, rfl, rfl, rfl, rfl, rfl, rfl, .nil, .nil⟩
  · obtain ⟨c, hc⟩ : ∃ c, ofYaml? "bind: \x7ba: b, a: c\x7d".toList = some c := by
      rw [ofYaml?, Record.ofYaml?, ofText?_flat]
      exact ⟨_, rfl⟩
    refine ⟨c, hc, ?_⟩
    obtain ⟨es, hes, hget⟩ := (hnode _ _ c ofText?_flat hc).1 _
      ⟨_, _, _, _, rfl, rfl, List.mem_cons_self .., rfl⟩
    have halias := Yaml.Document.noAliases_ofText? ofText?_flat
    have hmap := (Yaml.Document.stringMap_ofNode?_eq_some_iff halias).mpr ⟨es, hes, rfl⟩
    have hother := (Yaml.Document.stringMap_ofNode?_eq_some_iff halias).mpr ⟨_, hmapping _, rfl⟩
    rw [show c.bind = TextMap.ofList es from hget, Option.some.inj (hmap.symm.trans hother)]
    rfl

end Config

end Capsule
