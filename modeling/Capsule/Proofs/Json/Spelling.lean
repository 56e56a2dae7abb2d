import Capsule.Json.Document
import Capsule.Json.Printer

/-!
# Texts of values

A value can be written in more than one way, since blanks may stand between any two tokens.
`Json.Spells` says which texts are texts of a value, and two things are proved of it: the reader
reads every such text as the value, and both layouts of the printer write such texts. So the
printer and the reader, which have nothing in common, are compared through the grammar, and a third
layout would cost no more than the proof that it belongs to the grammar.

## Reading

The reader never fails, and gives the document of what it has read, so that a value is read back if
its text leads to `Doc.ofJson`. What follows a value is left alone. The reader's fuel is a bound on
nested calls; each takes at least one character, and a list has two calls for each item, so that
two for a character are enough.

## Left out

No number is spelled. What is written of a configuration has none, and a number is the one token
that can be continued by what follows it.

## Main definitions

* `Json.Spells`: the texts of a value
* `Doc.ofJson`: the document that they are read as
* `Json.NumberFree`: the values that have texts

## Main results

* `Doc.read_of_spells`: a text of a value is read as that value
* `Json.spells_compactChars`, `Json.spells_prettyChars`: what is printed is a text of the value
-/

namespace Capsule

/-! ### The grammar -/

namespace Json

/-- Nothing but blanks. -/
def Blanks (cs : List Char) : Prop := ∀ c ∈ cs, Doc.isBlank c = true

mutual

/-- The texts of a value. -/
inductive Spells : Json → List Char → Prop
  | null : Spells .null ['n', 'u', 'l', 'l']
  | true : Spells (.bool true) ['t', 'r', 'u', 'e']
  | false : Spells (.bool false) ['f', 'a', 'l', 's', 'e']
  | string (s : String) : Spells (.string s) (stringChars s)
  | emptyArray {b : List Char} (blanks : Blanks b) : Spells (.array []) ('[' :: (b ++ [']']))
  | array {x : Json} {xs : List Json} {b cs ds : List Char} (blanks : Blanks b)
      (first : Spells x cs) (others : SpellsItems xs ds) :
      Spells (.array (x :: xs)) ('[' :: (b ++ (cs ++ ds)))
  | emptyObject {b : List Char} (blanks : Blanks b) : Spells (.object []) ('{' :: (b ++ ['}']))
  | object {k : String} {v : Json} {ms : List (String × Json)} {a b c cs ds : List Char}
      (blanks : Blanks a) (before : Blanks b) (behind : Blanks c) (first : Spells v cs)
      (others : SpellsMembers ms ds) :
      Spells (.object ((k, v) :: ms))
        ('{' :: (a ++ (stringChars k ++ (b ++ ':' :: (c ++ (cs ++ ds))))))

/-- The texts of the items behind the first, with the closing bracket. -/
inductive SpellsItems : List Json → List Char → Prop
  | nil {b : List Char} (blanks : Blanks b) : SpellsItems [] (b ++ [']'])
  | cons {x : Json} {xs : List Json} {a b cs ds : List Char} (before : Blanks a)
      (behind : Blanks b) (item : Spells x cs) (others : SpellsItems xs ds) :
      SpellsItems (x :: xs) (a ++ ',' :: (b ++ (cs ++ ds)))

/-- The texts of the members behind the first, with the closing brace. -/
inductive SpellsMembers : List (String × Json) → List Char → Prop
  | nil {b : List Char} (blanks : Blanks b) : SpellsMembers [] (b ++ ['}'])
  | cons {k : String} {v : Json} {ms : List (String × Json)} {a b c d cs ds : List Char}
      (before : Blanks a) (behind : Blanks b) (beforeColon : Blanks c) (behindColon : Blanks d)
      (value : Spells v cs) (others : SpellsMembers ms ds) :
      SpellsMembers ((k, v) :: ms)
        (a ++ ',' :: (b ++ (stringChars k ++ (c ++ ':' :: (d ++ (cs ++ ds))))))

end

end Json

namespace Doc

open Json

/-! ### Strings -/

/-- The digits of a control character are read as its number. -/
theorem number?_control {n : Nat} (h : n < 0x20) :
    Hex.number? ['0', '0', Nat.digitChar (n / 16), Nat.digitChar (n % 16)] = some n := by
  have hall : ∀ n < 0x20,
      Hex.number? ['0', '0', Nat.digitChar (n / 16), Nat.digitChar (n % 16)] = some n := by
    decide
  exact hall n h

/-- A character is written as one piece, which stands for it. -/
theorem exists_piece (c : Char) : ∃ p : Piece,
    (∀ cs, pieces (escapeChar c ++ cs) = (p :: (pieces cs).1, (pieces cs).2)) ∧
      ∀ cut ps, assemble cut (p :: ps) = (assemble cut ps).map (c :: ·) := by
  unfold escapeChar
  split
  case h_8 =>
    by_cases hc : c.toNat < 0x20
    · refine ⟨.codeUnit c.toNat, fun cs => ?_, fun cut ps => ?_⟩
      · rw [if_pos hc]
        simp only [List.cons_append, List.nil_append, pieces, number?_control hc]
      · have hlow : isLow c.toNat = false := by
          simp only [isLow, Bool.and_eq_false_iff, decide_eq_false_iff_not]
          omega
        have hhigh : isHigh c.toNat = false := by
          simp only [isHigh, Bool.and_eq_false_iff, decide_eq_false_iff_not]
          omega
        simp [assemble.eq_def cut (.codeUnit _ :: ps), hlow, hhigh]
    · refine ⟨.char c, fun cs => ?_, fun cut ps => rfl⟩
      rw [if_neg hc, List.singleton_append, pieces, if_neg hc]
      all_goals grind
  all_goals exact ⟨.char _, fun cs => rfl, fun cut ps => rfl⟩

theorem pieces_escaped (s rest : List Char) : ∃ ps,
    pieces (s.flatMap escapeChar ++ '"' :: rest) = (ps, .ok rest) ∧ assemble false ps = some s := by
  induction s with
  | nil => exact ⟨[], rfl, rfl⟩
  | cons c s ih =>
    obtain ⟨ps, hpieces, hs⟩ := ih
    obtain ⟨p, hp, hc⟩ := exists_piece c
    refine ⟨p :: ps, ?_, ?_⟩
    · rw [List.flatMap_cons, List.append_assoc, hp, hpieces]
    · rw [hc, hs, Option.map_some]

/-- **A string is read back**, whatever follows it. -/
theorem stringRest_stringChars (s : String) (rest : List Char) :
    stringRest ((stringChars s).tail ++ rest) = (.ok s, .ok rest) := by
  obtain ⟨ps, hpieces, hs⟩ := pieces_escaped s.toList rest
  rw [stringChars, List.cons_append, List.tail_cons, List.append_assoc, List.singleton_append,
    stringRest, hpieces]
  simp only [hs, String.ofList_toList]

/-! ### Reading step by step -/

mutual

/-- The document that a text of a value is read as. -/
def ofJson : Json → Doc
  | .null => .null
  | .bool b => .bool b
  | .number n => .number (.ok n)
  | .string s => .string (.ok s)
  | .array xs => .array (ofItems xs) .closed
  | .object ms => .object (ofMembers ms) .closed

def ofItems : List Json → List Doc
  | [] => []
  | x :: xs => ofJson x :: ofItems xs

def ofMembers : List (String × Json) → List (Key × Doc)
  | [] => []
  | (k, v) :: ms => (.text (.ok k), ofJson v) :: ofMembers ms

end

theorem skipBlanks_cons {c : Char} (hc : isBlank c = false) (cs : List Char) :
    skipBlanks (c :: cs) = c :: cs := List.dropWhile_cons_of_neg (by simp [hc])

theorem skipBlanks_append {b : List Char} (hb : Blanks b) (cs : List Char) :
    skipBlanks (b ++ cs) = skipBlanks cs := List.dropWhile_append_of_pos hb

theorem skipBlanks_append_cons {b : List Char} (hb : Blanks b) {c : Char}
    (hc : isBlank c = false) (cs : List Char) : skipBlanks (b ++ c :: cs) = c :: cs := by
  rw [skipBlanks_append hb, skipBlanks_cons hc]

section

variable {fuel : Nat} {cs rest rest' more next behind : List Char} {c : Char} {d : Doc}
  {ds : List Doc} {ms : List (Key × Doc)} {key : Except Fault String} {first : List Char}

theorem value_append {b : List Char} (hb : Blanks b) (fuel : Nat) (cs : List Char) :
    value fuel (b ++ cs) = value fuel cs := by
  cases fuel with
  | zero => rw [value, value]
  | succ fuel => rw [value, value, skipBlanks_append hb]

theorem value_string (fuel : Nat) (s : String) (rest : List Char) :
    value (fuel + 1) (stringChars s ++ rest) = (.string (.ok s), some rest) := by
  show value (fuel + 1) ('"' :: ((stringChars s).tail ++ rest)) = _
  rw [value, skipBlanks_cons rfl]
  simp only [stringRest_stringChars]

theorem value_emptyArray (h : skipBlanks cs = ']' :: rest) :
    value (fuel + 1) ('[' :: cs) = (.array [] .closed, some rest) := by
  rw [value, skipBlanks_cons rfl]
  simp only [h]

theorem value_array (h : skipBlanks cs = c :: rest) (hc : c ≠ ']')
    (hitems : items fuel (c :: rest) = (ds, .closed, some behind)) :
    value (fuel + 1) ('[' :: cs) = (.array ds .closed, some behind) := by
  rw [value, skipBlanks_cons rfl]
  simp only [h]
  split
  · exact absurd (List.cons.inj ‹_›).1 hc
  · cases ‹_ = []›
  · rw [hitems]

theorem items_last (hvalue : value fuel cs = (d, some rest))
    (h : skipBlanks rest = ']' :: behind) :
    items (fuel + 1) cs = ([d], .closed, some behind) := by
  rw [items, hvalue]
  simp only [h]

theorem items_more (hvalue : value fuel cs = (d, some rest)) (h : skipBlanks rest = ',' :: more)
    (h' : skipBlanks more = c :: next) (hc : c ≠ ']')
    (hitems : items fuel (c :: next) = (ds, .closed, some behind)) :
    items (fuel + 1) cs = (d :: ds, .closed, some behind) := by
  rw [items, hvalue]
  simp only [h, h']
  split
  · cases ‹_ = []›
  · exact absurd (List.cons.inj ‹_›).1 hc
  · rw [hitems]

theorem value_emptyObject (h : skipBlanks cs = '}' :: rest) :
    value (fuel + 1) ('{' :: cs) = (.object [] .closed, some rest) := by
  rw [value, skipBlanks_cons rfl]
  simp only [h]

theorem value_object (h : skipBlanks cs = '"' :: rest)
    (hmembers : members fuel ('"' :: rest) = (ms, .closed, some behind)) :
    value (fuel + 1) ('{' :: cs) = (.object ms .closed, some behind) := by
  rw [value, skipBlanks_cons rfl]
  simp only [h]
  split
  · exact absurd (List.cons.inj ‹_›).1 (by decide)
  · cases ‹_ = []›
  · rw [hmembers]

/-- A key is read whatever is found wrong with it. -/
theorem members_last (hkey : stringRest first = (key, .ok cs)) (h : skipBlanks cs = ':' :: rest)
    (hvalue : value fuel rest = (d, some rest')) (h' : skipBlanks rest' = '}' :: behind) :
    members (fuel + 1) ('"' :: first) = ([(.text key, d)], .closed, some behind) := by
  rw [members]
  simp only [hkey, h, hvalue, h']

theorem members_more (hkey : stringRest first = (key, .ok cs)) (h : skipBlanks cs = ':' :: rest)
    (hvalue : value fuel rest = (d, some rest')) (h' : skipBlanks rest' = ',' :: more)
    (h'' : skipBlanks more = '"' :: next)
    (hmembers : members fuel ('"' :: next) = (ms, .closed, some behind)) :
    members (fuel + 1) ('"' :: first) = ((.text key, d) :: ms, .closed, some behind) := by
  rw [members]
  simp only [hkey, h, hvalue, h', h'']
  split
  · cases ‹_ = []›
  · exact absurd (List.cons.inj ‹_›).1 (by decide)
  · rw [hmembers]

end

/-! ### Reading texts of values -/

/-- A text of a value begins with a character that ends no array. -/
theorem head_of_spells {v : Json} {cs : List Char} (h : Spells v cs) :
    ∃ c rest, cs = c :: rest ∧ isBlank c = false ∧ c ≠ ']' := by
  cases h <;> exact ⟨_, _, rfl, by decide, by decide⟩

-- The three functions of the reader are gone through together, by the derivation of the text. The
-- first item or member has been read when its list goes on, so what is given of it is its reading.
mutual

theorem value_of_spells {v : Json} {cs : List Char} (h : Spells v cs) {fuel : Nat}
    (hfuel : 2 * cs.length < fuel + 2) (rest : List Char) :
    value (fuel + 1) (cs ++ rest) = (ofJson v, some rest) := by
  cases h with
  | null => rfl
  | true => rfl
  | false => rfl
  | string s => exact value_string fuel s rest
  | emptyArray blanks =>
    simp only [List.cons_append, List.append_assoc]
    exact value_emptyArray (skipBlanks_append_cons blanks rfl rest)
  | array blanks first others =>
    obtain ⟨c, cs, rfl, hblank, hc⟩ := head_of_spells first
    simp only [List.cons_append, List.append_assoc, List.length_append, List.length_cons]
      at hfuel ⊢
    obtain ⟨fuel, rfl⟩ : ∃ n, fuel = n + 2 := ⟨fuel - 2, by omega⟩
    refine value_array (skipBlanks_append_cons blanks hblank _) hc ?_
    refine items_of_spells others (by omega) (value_of_spells first ?_ _)
    rw [List.length_cons]
    omega
  | emptyObject blanks =>
    simp only [List.cons_append, List.append_assoc]
    exact value_emptyObject (skipBlanks_append_cons blanks rfl rest)
  | object blanks before behind first others =>
    simp only [List.cons_append, List.append_assoc, List.length_append, List.length_cons]
      at hfuel ⊢
    obtain ⟨fuel, rfl⟩ : ∃ n, fuel = n + 2 := ⟨fuel - 2, by omega⟩
    refine value_object (skipBlanks_append_cons blanks rfl _) ?_
    refine members_of_spells others (by omega) _ (skipBlanks_append_cons before rfl _) ?_
    rw [value_append behind]
    exact value_of_spells first (by omega) _

theorem items_of_spells {xs : List Json} {cs : List Char} (h : SpellsItems xs cs) {fuel : Nat}
    (hfuel : 2 * cs.length < fuel + 2) {first rest : List Char} {d : Doc}
    (hfirst : value (fuel + 1) first = (d, some (cs ++ rest))) :
    items (fuel + 2) first = (d :: ofItems xs, .closed, some rest) := by
  cases h with
  | nil blanks =>
    rw [List.append_assoc] at hfirst
    exact items_last hfirst (skipBlanks_append_cons blanks rfl rest)
  | cons before behind item others =>
    obtain ⟨c, es, rfl, hblank, hc⟩ := head_of_spells item
    simp only [List.append_assoc, List.cons_append, List.length_append, List.length_cons]
      at hfuel hfirst
    obtain ⟨fuel, rfl⟩ : ∃ n, fuel = n + 1 := ⟨fuel - 1, by omega⟩
    refine items_more hfirst (skipBlanks_append_cons before rfl _)
      (skipBlanks_append_cons behind hblank _) hc ?_
    refine items_of_spells others (by omega) (value_of_spells item ?_ _)
    rw [List.length_cons]
    omega

theorem members_of_spells {ms : List (String × Json)} {cs : List Char} (h : SpellsMembers ms cs)
    {fuel : Nat} (hfuel : 2 * cs.length < fuel + 2) (k : String) {first text rest : List Char}
    {d : Doc} (hcolon : skipBlanks first = ':' :: text)
    (hfirst : value (fuel + 1) text = (d, some (cs ++ rest))) :
    members (fuel + 2) (stringChars k ++ first) =
      ((.text (.ok k), d) :: ofMembers ms, .closed, some rest) := by
  cases h with
  | nil blanks =>
    rw [List.append_assoc] at hfirst
    exact members_last (stringRest_stringChars k first) hcolon hfirst
      (skipBlanks_append_cons blanks rfl rest)
  | cons before behind beforeColon behindColon value others =>
    simp only [List.append_assoc, List.cons_append, List.length_append, List.length_cons]
      at hfuel hfirst
    obtain ⟨fuel, rfl⟩ : ∃ n, fuel = n + 1 := ⟨fuel - 1, by omega⟩
    refine members_more (stringRest_stringChars k first) hcolon hfirst
      (skipBlanks_append_cons before rfl _) (skipBlanks_append_cons behind rfl _) ?_
    refine members_of_spells others (by omega) _ (skipBlanks_append_cons beforeColon rfl _) ?_
    rw [value_append behindColon]
    exact value_of_spells value (by omega) _

end

/-- **A text of a value is read as that value.** -/
theorem read_of_spells {v : Json} {cs : List Char} (h : Spells v cs) :
    read cs = (ofJson v, none) := by
  have hvalue : value (2 * cs.length + 2) (cs ++ []) = (ofJson v, some []) :=
    value_of_spells h (by omega) []
  rw [List.append_nil] at hvalue
  rw [read, hvalue]
  rfl

end Doc

/-! ### Printing texts of values -/

namespace Json

mutual

/-- No number occurs in a value. -/
def NumberFree : Json → Prop
  | .number _ => False
  | .array xs => NumberFreeItems xs
  | .object ms => NumberFreeMembers ms
  | _ => True

def NumberFreeItems : List Json → Prop
  | [] => True
  | x :: xs => x.NumberFree ∧ NumberFreeItems xs

def NumberFreeMembers : List (String × Json) → Prop
  | [] => True
  | (_, v) :: ms => v.NumberFree ∧ NumberFreeMembers ms

end

theorem blanks_nil : Blanks [] := List.forall_mem_nil _

theorem blanks_space : Blanks [' '] := List.forall_mem_singleton.mpr rfl

theorem blanks_newline (level : Nat) : Blanks (newline level) := by
  refine List.forall_mem_cons.mpr ⟨rfl, fun c hc => ?_⟩
  rw [List.eq_of_mem_replicate hc]
  rfl

mutual

theorem spells_compactChars : ∀ v : Json, v.NumberFree → Spells v v.compactChars
  | .null, _ => .null
  | .bool true, _ => .true
  | .bool false, _ => .false
  | .number _, h => h.elim
  | .string s, _ => .string s
  | .array [], _ => .emptyArray blanks_nil
  | .array (x :: xs), h =>
    .array (b := []) blanks_nil (spells_compactChars x h.1) (spells_compactItems xs h.2)
  | .object [], _ => .emptyObject blanks_nil
  | .object ((k, v) :: ms), h => by
    have hobject := Spells.object (k := k) (a := []) (b := []) (c := []) blanks_nil blanks_nil
      blanks_nil (spells_compactChars v h.1) (spells_compactMembers ms h.2)
    simpa [compactChars] using hobject

theorem spells_compactItems : ∀ xs : List Json, NumberFreeItems xs →
    SpellsItems xs (compactItems xs)
  | [], _ => .nil blanks_nil
  | x :: xs, h =>
    .cons (a := []) (b := []) blanks_nil blanks_nil (spells_compactChars x h.1)
      (spells_compactItems xs h.2)

theorem spells_compactMembers : ∀ ms : List (String × Json), NumberFreeMembers ms →
    SpellsMembers ms (compactMembers ms)
  | [], _ => .nil blanks_nil
  | (k, v) :: ms, h => by
    have hmembers := SpellsMembers.cons (k := k) (a := []) (b := []) (c := []) (d := [])
      blanks_nil blanks_nil blanks_nil blanks_nil (spells_compactChars v h.1)
      (spells_compactMembers ms h.2)
    simpa [compactMembers] using hmembers

end

mutual

theorem spells_prettyChars (level : Nat) : ∀ v : Json, v.NumberFree →
    Spells v (v.prettyChars level)
  | .null, _ => .null
  | .bool true, _ => .true
  | .bool false, _ => .false
  | .number _, h => h.elim
  | .string s, _ => .string s
  | .array [], _ => .emptyArray blanks_nil
  | .array (x :: xs), h => by
    have harray := Spells.array (blanks_newline (level + 1))
      (spells_prettyChars (level + 1) x h.1) (spells_prettyItems level xs h.2)
    simpa [prettyChars] using harray
  | .object [], _ => .emptyObject blanks_nil
  | .object ((k, v) :: ms), h => by
    have hobject := Spells.object (k := k) (b := []) (blanks_newline (level + 1)) blanks_nil
      blanks_space (spells_prettyChars (level + 1) v h.1) (spells_prettyMembers level ms h.2)
    simpa [prettyChars] using hobject

theorem spells_prettyItems (level : Nat) : ∀ xs : List Json, NumberFreeItems xs →
    SpellsItems xs (prettyItems level xs)
  | [], _ => .nil (blanks_newline level)
  | x :: xs, h => by
    have hitems := SpellsItems.cons (a := []) blanks_nil (blanks_newline (level + 1))
      (spells_prettyChars (level + 1) x h.1) (spells_prettyItems level xs h.2)
    simpa [prettyItems] using hitems

theorem spells_prettyMembers (level : Nat) : ∀ ms : List (String × Json), NumberFreeMembers ms →
    SpellsMembers ms (prettyMembers level ms)
  | [], _ => .nil (blanks_newline level)
  | (k, v) :: ms, h => by
    have hmembers := SpellsMembers.cons (k := k) (a := []) (c := []) blanks_nil
      (blanks_newline (level + 1)) blanks_nil blanks_space (spells_prettyChars (level + 1) v h.1)
      (spells_prettyMembers level ms h.2)
    simpa [prettyMembers] using hmembers

end

end Json

end Capsule
