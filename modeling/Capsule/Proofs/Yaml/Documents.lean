import Capsule.Proofs.Yaml.Tokens
import Capsule.Yaml.Node

/-!
# Documents of JSON values

The tokens of a JSON value make one node, and the compact text of an object is the document of that
node: `Document.ofText?_compactChars`.

Whoever reads a configuration looks at nodes, and so `Node.ofJson` is all that is left of the
difference between the two notations: strings are quoted scalars, and words are plain ones.

The reader of nodes has fuel for its nested calls. Two of them for each token of a value are enough.

## Main definitions

* `Node.ofJson`: the node of a value

## Main results

* `Node.read_ofJson`: the tokens of a value are read as its node, whatever comes behind
* `Document.ofText?_compactChars`: the document of the text of an object
-/

namespace Capsule.Yaml

namespace Node

variable {ρ : Type}

/-! ### Nodes -/

mutual

/-- The node of a value. -/
def ofJson : Json → Node ρ
  | .null => .scalar {} .plain ['n', 'u', 'l', 'l']
  | .bool true => .scalar {} .plain ['t', 'r', 'u', 'e']
  | .bool false => .scalar {} .plain ['f', 'a', 'l', 's', 'e']
  | .number n => .scalar {} .plain (Json.numberChars n)
  | .string s => .scalar {} .doubleQuoted s.toList
  | .array xs => .sequence {} (ofItems xs)
  | .object ms => .mapping {} (ofMembers ms)

def ofItems : List Json → List (Node ρ)
  | [] => []
  | x :: xs => ofJson x :: ofItems xs

def ofMembers : List (String × Json) → List (Node ρ × Node ρ)
  | [] => []
  | (k, v) :: ms => (.scalar {} .doubleQuoted k.toList, ofJson v) :: ofMembers ms

end

/-! ### Reading step by step -/

/-- The tokens begin with one of those that the tokens of values begin with. -/
def beginsNode : List Token → Bool
  | .scalar _ _ :: _ => true
  | .flowSequenceStart :: _ => true
  | .flowMappingStart :: _ => true
  | _ => false

section

variable {handles : Handles} {fuel : Nat} {block bare : Bool} {ts us vs : List Token}
  {items : List (Node (List Char))} {entries : List (Node (List Char) × Node (List Char))}

theorem read_scalar (style : Style) (text : List Char) :
    read handles (fuel + 1) block bare (.scalar style text :: ts) =
      some (.scalar {} style text, ts) := by
  simp [read, takeProperties, scalarProperties]

theorem read_flowSequence (h : readFlowItems handles fuel true ts = some (items, us)) :
    read handles (fuel + 1) block bare (.flowSequenceStart :: ts) =
      some (.sequence {} items, us) := by
  simp [read, takeProperties, h]

theorem read_flowMapping (h : readFlowEntries handles fuel true ts = some (entries, us)) :
    read handles (fuel + 1) block bare (.flowMappingStart :: ts) =
      some (.mapping {} entries, us) := by
  simp [read, takeProperties, h]

theorem readFlowItems_end (first : Bool) :
    readFlowItems handles (fuel + 1) first (.flowSequenceEnd :: ts) = some ([], ts) := by
  simp [readFlowItems]

theorem readFlowEntries_end (first : Bool) :
    readFlowEntries handles (fuel + 1) first (.flowMappingEnd :: ts) = some ([], ts) := by
  simp [readFlowEntries]

theorem readFlowItems_first (h : beginsNode ts = true) :
    readFlowItems handles (fuel + 1) true ts = readFlowItem handles fuel ts := by
  fun_cases beginsNode ts <;> simp_all [readFlowItems, beginsNode]

theorem readFlowItems_comma (h : beginsNode ts = true) :
    readFlowItems handles (fuel + 1) false (.flowEntry :: ts) = readFlowItem handles fuel ts := by
  fun_cases beginsNode ts <;> simp_all [readFlowItems, beginsNode]

theorem readFlowItem_item (h : beginsNode ts = true) {item : Node (List Char)}
    (hitem : read handles fuel false false ts = some (item, us))
    (hitems : readFlowItems handles fuel false us = some (items, vs)) :
    readFlowItem handles (fuel + 1) ts = some (item :: items, vs) := by
  fun_cases beginsNode ts <;> simp_all [readFlowItem, beginsNode]

theorem readFlowEntries_first :
    readFlowEntries handles (fuel + 1) true (.key :: ts) =
      readFlowEntry handles fuel (.key :: ts) := by
  simp [readFlowEntries]

theorem readFlowEntries_comma :
    readFlowEntries handles (fuel + 1) false (.flowEntry :: .key :: ts) =
      readFlowEntry handles fuel (.key :: ts) := by
  simp [readFlowEntries]

theorem readFlowEntry_key (h : beginsNode ts = true) {v : Node (List Char)} (style : Style)
    (text : List Char) (hvalue : read handles fuel false false ts = some (v, us))
    (hentries : readFlowEntries handles (fuel + 2) false us = some (entries, vs)) :
    readFlowEntry handles (fuel + 3) (.key :: .scalar style text :: .value :: ts) =
      some ((.scalar {} style text, v) :: entries, vs) := by
  have hcomes : comes ts [.flowEntry, .flowMappingEnd] = false := by
    fun_cases beginsNode ts <;> simp_all [comes, beginsNode]
  have hkey : comes (.scalar style text :: .value :: ts) [.value, .flowEntry, .flowMappingEnd] =
      false := by simp [comes]
  simp [readFlowEntry, readUnless, readValue, hkey, read_scalar, hcomes, hvalue, hentries]

end

/-! ### Reading values -/

theorem beginsNode_ofJson (v : Json) (ts : List Token) :
    beginsNode (Token.ofJson v ++ ts) = true := by
  fun_cases Token.ofJson v <;> rfl

theorem length_ofJson_pos (v : Json) : 0 < (Token.ofJson v).length := by
  fun_cases Token.ofJson v <;> simp

theorem length_ofItems_pos (xs : List Json) : 0 < (Token.ofItems xs).length := by
  fun_cases Token.ofItems xs <;> simp

mutual

theorem read_ofJson (handles : Handles) (v : Json) {fuel : Nat}
    (hfuel : 2 * (Token.ofJson v).length ≤ fuel) (block bare : Bool) (ts : List Token) :
    read handles fuel block bare (Token.ofJson v ++ ts) = some (ofJson v, ts) := by
  obtain ⟨fuel, rfl⟩ : ∃ n, fuel = n + 2 :=
    ⟨fuel - 2, by have := length_ofJson_pos v; omega⟩
  match v with
  | .null => exact read_scalar ..
  | .bool true => exact read_scalar ..
  | .bool false => exact read_scalar ..
  | .number n => exact read_scalar ..
  | .string s => exact read_scalar ..
  | .array [] => exact read_flowSequence (readFlowItems_end true)
  | .array (x :: xs) =>
    have hx := length_ofJson_pos x
    have hxs := length_ofItems_pos xs
    simp only [Token.ofJson, List.length_cons, List.length_append, List.cons_append,
      List.append_assoc] at hfuel ⊢
    obtain ⟨fuel, rfl⟩ : ∃ n, fuel = n + 1 := ⟨fuel - 1, by omega⟩
    refine read_flowSequence ?_
    rw [readFlowItems_first (beginsNode_ofJson ..)]
    exact readFlowItem_item (beginsNode_ofJson ..) (read_ofJson handles x (by omega) ..)
      (readFlowItems_ofItems handles xs (by omega) ts)
  | .object [] => exact read_flowMapping (readFlowEntries_end true)
  | .object ((k, v) :: ms) =>
    simp only [Token.ofJson, List.length_cons, List.length_append, List.cons_append,
      List.append_assoc] at hfuel ⊢
    obtain ⟨fuel, rfl⟩ : ∃ n, fuel = n + 3 := ⟨fuel - 3, by omega⟩
    refine read_flowMapping ?_
    rw [readFlowEntries_first]
    exact readFlowEntry_key (beginsNode_ofJson ..) _ _ (read_ofJson handles v (by omega) ..)
      (readFlowEntries_ofMembers handles ms (by omega) ts)

theorem readFlowItems_ofItems (handles : Handles) (xs : List Json) {fuel : Nat}
    (hfuel : 2 * (Token.ofItems xs).length ≤ fuel) (ts : List Token) :
    readFlowItems handles fuel false (Token.ofItems xs ++ ts) = some (ofItems xs, ts) := by
  obtain ⟨fuel, rfl⟩ : ∃ n, fuel = n + 2 :=
    ⟨fuel - 2, by have := length_ofItems_pos xs; omega⟩
  match xs with
  | [] => exact readFlowItems_end false
  | x :: xs =>
    simp only [Token.ofItems, List.length_cons, List.length_append, List.cons_append,
      List.append_assoc] at hfuel ⊢
    rw [readFlowItems_comma (beginsNode_ofJson ..)]
    exact readFlowItem_item (beginsNode_ofJson ..) (read_ofJson handles x (by omega) ..)
      (readFlowItems_ofItems handles xs (by omega) ts)

theorem readFlowEntries_ofMembers (handles : Handles) (ms : List (String × Json)) {fuel : Nat}
    (hfuel : 2 * (Token.ofMembers ms).length ≤ fuel) (ts : List Token) :
    readFlowEntries handles fuel false (Token.ofMembers ms ++ ts) = some (ofMembers ms, ts) := by
  match ms with
  | [] =>
    rw [Token.ofMembers, List.length_singleton] at hfuel
    obtain ⟨fuel, rfl⟩ : ∃ n, fuel = n + 2 := ⟨fuel - 2, by omega⟩
    exact readFlowEntries_end false
  | (k, v) :: ms =>
    simp only [Token.ofMembers, List.length_cons, List.length_append, List.cons_append,
      List.append_assoc] at hfuel ⊢
    obtain ⟨fuel, rfl⟩ : ∃ n, fuel = n + 4 := ⟨fuel - 4, by omega⟩
    rw [readFlowEntries_comma]
    exact readFlowEntry_key (beginsNode_ofJson ..) _ _ (read_ofJson handles v (by omega) ..)
      (readFlowEntries_ofMembers handles ms (by omega) ts)

end

/-! ### Documents -/

/-- **The tokens of a value make the node of the value.** -/
theorem ofTokens?_ofJson (v : Json) : ofTokens? (Token.ofJson v) = some (some (ofJson v)) := by
  have hfuel : 2 * (Token.ofJson v).length ≤ 4 * (Token.ofJson v).length + 4 := by omega
  have hread := read_ofJson defaultHandles v hfuel true false []
  rw [List.append_nil] at hread
  have hbegins := beginsNode_ofJson v []
  rw [List.append_nil] at hbegins
  generalize Token.ofJson v = ts at hread hbegins
  fun_cases beginsNode ts <;> simp_all [ofTokens?, beginsExplicit, beginsNode]

end Node

namespace Anchors

mutual

/-- Nothing is anchored in the node of a value. -/
theorem resolve_ofJson (a : Anchors) (v : Json) : a.resolve (.ofJson v) = some (.ofJson v, a) := by
  match v with
  | .null => rfl
  | .bool true => rfl
  | .bool false => rfl
  | .number n => rfl
  | .string s => rfl
  | .array xs =>
    rw [Node.ofJson, resolve]
    dsimp only [enter]
    rw [resolveItems_ofItems]
    rfl
  | .object ms =>
    rw [Node.ofJson, resolve]
    dsimp only [enter]
    rw [resolveEntries_ofMembers]
    rfl

theorem resolveItems_ofItems (a : Anchors) (xs : List Json) :
    a.resolveItems (Node.ofItems xs) = some (Node.ofItems xs, a) := by
  match xs with
  | [] => rfl
  | x :: xs =>
    simp only [Node.ofItems, resolveItems, resolve_ofJson a x, resolveItems_ofItems a xs,
      Option.bind_eq_bind, Option.bind_some]
    rfl

theorem resolveEntries_ofMembers (a : Anchors) (ms : List (String × Json)) :
    a.resolveEntries (Node.ofMembers ms) = some (Node.ofMembers ms, a) := by
  match ms with
  | [] => rfl
  | (k, v) :: ms =>
    have hkey : a.resolve (.scalar {} .doubleQuoted k.toList) =
        some (.scalar {} .doubleQuoted k.toList, a) := rfl
    simp only [Node.ofMembers, resolveEntries, hkey, resolve_ofJson a v,
      resolveEntries_ofMembers a ms, Option.bind_eq_bind, Option.bind_some]
    rfl

end

end Anchors

/-- **The document of the compact text of an object is the node of the object.** -/
theorem Document.ofText?_compactChars {ms : List (String × Json)} (hms : IsFlowMembers ms) :
    Document.ofText? (Json.compactChars (.object ms)) = some ⟨some (.ofJson (.object ms)), {}⟩ := by
  simp only [ofText?, Token.ofText?_compactChars hms, Node.ofTokens?_ofJson,
    Anchors.resolve_ofJson, Option.bind_eq_bind, Option.bind_some]
  rfl

end Capsule.Yaml
