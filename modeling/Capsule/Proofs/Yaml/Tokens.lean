import Capsule.Proofs.Yaml.Reader

/-!
# Tokens of JSON values

The compact text of a JSON value is YAML text as well: brackets, commas, colons, words, and scalars
between double quotes. This file proves that the tokens of the value are read from it.

The recursion of the proof is that of the printer, and the tokens are listed by the same recursion.
A member's key is a token behind the one that makes it a key, though in the text nothing but the
colon behind the key tells it.

## Left out

No number is read, since none is written of a configuration.

## Main definitions

* `Token.ofJson`: the tokens of a value
* `IsFlow`: the values whose tokens are read from their texts

## Main results

* `Reader.Stands.value`: the tokens of a value are read, whatever the brackets around it
* `Token.ofText?_compactChars`: the tokens of an object are read from its text
-/

namespace Capsule

open Json (escapeChar stringChars)

namespace Yaml

/-! ### Tokens -/

mutual

/-- The tokens of a value. -/
def Token.ofJson : Json → List Token
  | .null => [.scalar .plain ['n', 'u', 'l', 'l']]
  | .bool true => [.scalar .plain ['t', 'r', 'u', 'e']]
  | .bool false => [.scalar .plain ['f', 'a', 'l', 's', 'e']]
  | .number n => [.scalar .plain (Json.numberChars n)]
  | .string s => [.scalar .doubleQuoted s.toList]
  | .array [] => [.flowSequenceStart, .flowSequenceEnd]
  | .array (x :: xs) => .flowSequenceStart :: (Token.ofJson x ++ Token.ofItems xs)
  | .object [] => [.flowMappingStart, .flowMappingEnd]
  | .object ((k, v) :: ms) =>
    .flowMappingStart :: .key :: .scalar .doubleQuoted k.toList :: .value ::
      (Token.ofJson v ++ Token.ofMembers ms)

/-- The tokens of the items behind the first, and of the closing bracket. -/
def Token.ofItems : List Json → List Token
  | [] => [.flowSequenceEnd]
  | x :: xs => .flowEntry :: (Token.ofJson x ++ Token.ofItems xs)

/-- The tokens of the members behind the first, and of the closing brace. -/
def Token.ofMembers : List (String × Json) → List Token
  | [] => [.flowMappingEnd]
  | (k, v) :: ms =>
    .flowEntry :: .key :: .scalar .doubleQuoted k.toList :: .value ::
      (Token.ofJson v ++ Token.ofMembers ms)

end

/-! ### What is read -/

/-- A printable key, short enough to be told by the colon behind it. -/
def IsKey (s : String) : Prop :=
  (∀ c ∈ s.toList, IsPrintable c) ∧ (stringChars s).length ≤ keyReach

instance (s : String) : Decidable (IsKey s) := @instDecidableAnd _ _ (List.decidableBAll _ _) _

theorem length_flatMap_escapeChar {cs : List Char} (h : ∀ c ∈ cs, IsPrintable c) :
    (cs.flatMap escapeChar).length ≤ 2 * cs.length := by
  induction cs with
  | nil => exact Nat.le_refl _
  | cons c cs ih =>
    rw [List.forall_mem_cons] at h
    have hchar : (escapeChar c).length ≤ 2 := by
      rw [escapeChar_of_isPrintable h.1]
      split <;> simp
    have hothers := ih h.2
    rw [List.flatMap_cons, List.length_append, List.length_cons]
    omega

/-- Even if all of a key is escaped, it is still a key at half the reach. -/
theorem isKey_of_length_le {s : String} (hs : ∀ c ∈ s.toList, IsPrintable c)
    (hlength : s.length ≤ 500) : IsKey s := by
  have hescaped := length_flatMap_escapeChar hs
  rw [String.length_toList] at hescaped
  refine ⟨hs, ?_⟩
  simp only [stringChars, List.length_append, List.length_cons, List.length_nil, keyReach]
  omega

mutual

/-- No numbers occur in a value, its texts are printable, and its keys are printable and short. -/
def IsFlow : Json → Prop
  | .number _ => False
  | .string s => ∀ c ∈ s.toList, IsPrintable c
  | .array xs => IsFlowItems xs
  | .object ms => IsFlowMembers ms
  | _ => True

def IsFlowItems : List Json → Prop
  | [] => True
  | x :: xs => IsFlow x ∧ IsFlowItems xs

def IsFlowMembers : List (String × Json) → Prop
  | [] => True
  | (k, v) :: ms => IsKey k ∧ IsFlow v ∧ IsFlowMembers ms

end

theorem endsValue_compactItems (xs : List Json) (rest : List Char) :
    EndsValue (Json.compactItems xs ++ rest) := by
  cases xs with
  | nil => exact .inr (.inl rfl)
  | cons x xs => exact .inl rfl

theorem endsValue_compactMembers (ms : List (String × Json)) (rest : List Char) :
    EndsValue (Json.compactMembers ms ++ rest) := by
  cases ms with
  | nil => exact .inr (.inr rfl)
  | cons m ms => exact .inl rfl

namespace Reader.Stands

-- The printer's functions are gone through together. An object may be the outermost value, so that
-- it is read outside all brackets as well.
mutual

theorem value {v : Json} (hv : IsFlow v) {r : Reader} {depth : Nat} {k : Bool} {rest : List Char}
    {ts : List Token} (hrest : EndsValue rest)
    (h : r.Stands (depth + 1) k (v.compactChars ++ rest) ts) :
    r.Reaches (depth + 1) false rest (ts ++ Token.ofJson v) := by
  match v, hv with
  | .null, _ => exact h.word (by simp [Json.compactChars]) (by simp [Json.compactChars]) hrest
  | .bool true, _ => exact h.word (by simp [Json.compactChars]) (by simp [Json.compactChars]) hrest
  | .bool false, _ => exact h.word (by simp [Json.compactChars]) (by simp [Json.compactChars]) hrest
  | .string s, hs => exact h.quoted hs
  | .array [], _ =>
    refine h.openSequence.bind fun h => ?_
    rw [Token.ofJson, List.append_cons]
    exact h.closeSequence
  | .array (x :: xs), ⟨hx, hxs⟩ =>
    rw [Json.compactChars, List.append_assoc, List.cons_append] at h
    rw [Token.ofJson, List.append_cons, ← List.append_assoc]
    refine h.openSequence.bind fun h => ?_
    refine (value hx (endsValue_compactItems xs rest) h).bind fun h => ?_
    exact items hxs h
  | .object ms, hms => exact object hms h

theorem items {xs : List Json} (hxs : IsFlowItems xs) {r : Reader} {depth : Nat} {k : Bool}
    {rest : List Char} {ts : List Token}
    (h : r.Stands (depth + 1) k (Json.compactItems xs ++ rest) ts) :
    r.Reaches depth false rest (ts ++ Token.ofItems xs) := by
  match xs, hxs with
  | [], _ => exact h.closeSequence
  | x :: xs, ⟨hx, hxs⟩ =>
    rw [Json.compactItems, List.append_assoc, List.cons_append] at h
    rw [Token.ofItems, List.append_cons, ← List.append_assoc]
    refine h.comma.bind fun h => ?_
    refine (value hx (endsValue_compactItems xs rest) h).bind fun h => ?_
    exact items hxs h

theorem object {ms : List (String × Json)} (hms : IsFlowMembers ms) {r : Reader} {depth : Nat}
    {k : Bool} {rest : List Char} {ts : List Token}
    (h : r.Stands depth k (Json.compactChars (.object ms) ++ rest) ts) :
    r.Reaches depth false rest (ts ++ Token.ofJson (.object ms)) := by
  match ms, hms with
  | [], _ =>
    refine h.openMapping.bind fun h => ?_
    rw [Token.ofJson, List.append_cons]
    exact h.closeMapping
  | (s, v) :: ms, ⟨⟨hs, hreach⟩, hv, hms⟩ =>
    simp only [Json.compactChars, List.append_assoc, List.cons_append] at h
    refine h.openMapping.bind fun h => ?_
    refine (h.key hs hreach).bind fun h => ?_
    refine (value hv (endsValue_compactMembers ms rest) h).bind fun h => ?_
    have hmembers := members hms h
    simpa [Token.ofJson] using hmembers

theorem members {ms : List (String × Json)} (hms : IsFlowMembers ms) {r : Reader} {depth : Nat}
    {k : Bool} {rest : List Char} {ts : List Token}
    (h : r.Stands (depth + 1) k (Json.compactMembers ms ++ rest) ts) :
    r.Reaches depth false rest (ts ++ Token.ofMembers ms) := by
  match ms, hms with
  | [], _ => exact h.closeMapping
  | (s, v) :: ms, ⟨⟨hs, hreach⟩, hv, hms⟩ =>
    simp only [Json.compactMembers, List.append_assoc, List.cons_append] at h
    refine h.comma.bind fun h => ?_
    refine (h.key hs hreach).bind fun h => ?_
    refine (value hv (endsValue_compactMembers ms rest) h).bind fun h => ?_
    have hmembers := members hms h
    simpa [Token.ofMembers] using hmembers

end

end Reader.Stands

/-! ### Whole texts -/

theorem isPrintable_stringChars {s : String} (hs : ∀ c ∈ s.toList, IsPrintable c) :
    ∀ c ∈ stringChars s, IsPrintable c := by
  rw [stringChars, List.cons_append, List.forall_mem_cons, List.forall_mem_append]
  refine ⟨by decide, fun c hc => ?_, by simp [IsPrintable]⟩
  obtain ⟨d, hd, hc⟩ := List.mem_flatMap.mp hc
  rw [escapeChar_of_isPrintable (hs d hd)] at hc
  split at hc
  · rcases List.mem_cons.mp hc with rfl | hc
    · decide
    · exact List.mem_singleton.mp hc ▸ hs d hd
  · exact List.mem_singleton.mp hc ▸ hs d hd

mutual

theorem isPrintable_compactChars {v : Json} (hv : IsFlow v) :
    ∀ c ∈ v.compactChars, IsPrintable c := by
  match v, hv with
  | .null, _ => simp [Json.compactChars, IsPrintable]
  | .bool true, _ => simp [Json.compactChars, IsPrintable]
  | .bool false, _ => simp [Json.compactChars, IsPrintable]
  | .string s, hs => exact isPrintable_stringChars hs
  | .array [], _ => simp [Json.compactChars, IsPrintable]
  | .array (x :: xs), ⟨hx, hxs⟩ =>
    simp only [Json.compactChars, List.cons_append, List.forall_mem_cons, List.forall_mem_append]
    exact ⟨by decide, isPrintable_compactChars hx, isPrintable_compactItems hxs⟩
  | .object [], _ => simp [Json.compactChars, IsPrintable]
  | .object ((s, v) :: ms), ⟨⟨hs, _⟩, hv, hms⟩ =>
    simp only [Json.compactChars, List.cons_append, List.forall_mem_cons, List.forall_mem_append]
    exact ⟨by decide, ⟨isPrintable_stringChars hs, by decide, isPrintable_compactChars hv⟩,
      isPrintable_compactMembers hms⟩

theorem isPrintable_compactItems {xs : List Json} (hxs : IsFlowItems xs) :
    ∀ c ∈ Json.compactItems xs, IsPrintable c := by
  match xs, hxs with
  | [], _ => simp [Json.compactItems, IsPrintable]
  | x :: xs, ⟨hx, hxs⟩ =>
    simp only [Json.compactItems, List.cons_append, List.forall_mem_cons, List.forall_mem_append]
    exact ⟨by decide, isPrintable_compactChars hx, isPrintable_compactItems hxs⟩

theorem isPrintable_compactMembers {ms : List (String × Json)} (hms : IsFlowMembers ms) :
    ∀ c ∈ Json.compactMembers ms, IsPrintable c := by
  match ms, hms with
  | [], _ => simp [Json.compactMembers, IsPrintable]
  | (s, v) :: ms, ⟨⟨hs, _⟩, hv, hms⟩ =>
    simp only [Json.compactMembers, List.cons_append, List.forall_mem_cons, List.forall_mem_append]
    exact ⟨by decide, ⟨isPrintable_stringChars hs, by decide, isPrintable_compactChars hv⟩,
      isPrintable_compactMembers hms⟩

end

/-- **The compact text of an object has the tokens of the object.** -/
theorem Token.ofText?_compactChars {ms : List (String × Json)} (hms : IsFlowMembers ms) :
    Token.ofText? (Json.compactChars (.object ms)) = some (Token.ofJson (.object ms)) := by
  have hallowed : (Json.compactChars (.object ms)).any (fun c => !isAllowed c) = false := by
    rw [List.any_eq_false]
    intro c hc
    rw [(isPrintable_compactChars (v := .object ms) hms c hc).isAllowed]
    decide
  have hstart : Reader.Stands { rest := Json.compactChars (.object ms) } 0 true
      (Json.compactChars (.object ms) ++ []) [] := by
    rw [List.append_nil]
    exact ⟨rfl, by simp, rfl, rfl, rfl, rfl, rfl⟩
  obtain ⟨r, hread, htokens⟩ := (hstart.object hms).exists_readAll
  rw [List.nil_append] at htokens
  rw [ofText?, hallowed, hread, ← htokens]
  rfl

end Yaml

end Capsule
