import Capsule.Json.Decode
import Capsule.Proofs.Json.Spelling
import Mathlib.Data.List.Forall2

/-!
# The grammar of documents

`Json.Spells` says how a value that is printed may be laid out. What is read may be any text of the
format: numbers of any size, strings with any escapes, among them halves of surrogate pairs that
denote nothing, and values of any shape where a value is not wanted. So the whole grammar is stated
here, and stated of texts alone, without a value that they are texts of: a part of a text is wanted
for what is read of it, and that can be said only of the part itself.

## What is read

The reader is proved complete for the grammar: `Doc.Reads` ties a text of the grammar to one
document, the same whatever stands behind the text. The one token that goes on as long as it can is
the number, and so only what can stand behind a value may follow. A value that is skipped is never
at fault, as long as it is in the grammar.

## Main definitions

* `Json.IsValue`, `Json.IsArray`, `Json.IsObject`: the texts of the format, with their parts
* `Json.Denotes`: the characters that a string stands for
* `Json.ArrayText`, `Json.ObjectText`: whole documents with given items or members
* `Doc.Reads`: what a text is read as

## Main results

* `Json.exists_arrayText`, `Json.exists_objectText`: all parts are parts of some document
* `Doc.exists_reads`: every text of the grammar is read, and can be skipped
* `Doc.read_arrayText`, `Doc.read_objectText`: whole documents are read part by part
-/

namespace Capsule

namespace Json

/-! ### Strings -/

/-- The letters of escapes, each with its character. -/
def escapes : List (Char × Char) :=
  [('"', '"'), ('\\', '\\'), ('/', '/'), ('b', '\x08'), ('f', '\x0c'), ('n', '\n'), ('r', '\r'),
    ('t', '\t')]

/-- What may stand between the quotation marks of a string. -/
inductive IsString : List Char → Prop
  | nil : IsString []
  | plain {c : Char} {cs : List Char} (no_control : 0x20 ≤ c.toNat) (no_quote : c ≠ '"')
      (no_escape : c ≠ '\\') (others : IsString cs) : IsString (c :: cs)
  | letter {l c : Char} {cs : List Char} (escape : (l, c) ∈ escapes) (others : IsString cs) :
      IsString ('\\' :: l :: cs)
  | codeUnit {a b c d : Char} {n : Nat} {cs : List Char} (digits : Hex.number? [a, b, c, d] = some n)
      (others : IsString cs) : IsString ('\\' :: 'u' :: a :: b :: c :: d :: cs)

/-- The characters that a string stands for. Two halves of a surrogate pair are one character, and a
half alone is none. -/
inductive Denotes : List Char → List Char → Prop
  | nil : Denotes [] []
  | plain {c : Char} {cs s : List Char} (no_control : 0x20 ≤ c.toNat) (no_quote : c ≠ '"')
      (no_escape : c ≠ '\\') (others : Denotes cs s) : Denotes (c :: cs) (c :: s)
  | letter {l c : Char} {cs s : List Char} (escape : (l, c) ∈ escapes) (others : Denotes cs s) :
      Denotes ('\\' :: l :: cs) (c :: s)
  | codeUnit {a b c d : Char} {n : Nat} {cs s : List Char}
      (digits : Hex.number? [a, b, c, d] = some n) (whole : n < 0xD800 ∨ 0xE000 ≤ n)
      (others : Denotes cs s) : Denotes ('\\' :: 'u' :: a :: b :: c :: d :: cs) (Char.ofNat n :: s)
  | pair {a b c d a' b' c' d' : Char} {n n' : Nat} {cs s : List Char}
      (high : Hex.number? [a, b, c, d] = some n) (is_high : 0xD800 ≤ n ∧ n < 0xDC00)
      (low : Hex.number? [a', b', c', d'] = some n') (is_low : 0xDC00 ≤ n' ∧ n' < 0xE000)
      (others : Denotes cs s) :
      Denotes ('\\' :: 'u' :: a :: b :: c :: d :: '\\' :: 'u' :: a' :: b' :: c' :: d' :: cs)
        (Char.ofNat (0x10000 + (n - 0xD800) * 0x400 + (n' - 0xDC00)) :: s)

theorem Denotes.isString {cs s : List Char} (h : Denotes cs s) : IsString cs := by
  induction h with
  | nil => exact .nil
  | plain no_control no_quote no_escape others ih => exact .plain no_control no_quote no_escape ih
  | letter escape others ih => exact .letter escape ih
  | codeUnit digits whole others ih => exact .codeUnit digits ih
  | pair high is_high low is_low others ih => exact .codeUnit high (.codeUnit low ih)

/-! ### Numbers -/

/-- Digits, and at least one. -/
structure IsDigits (cs : List Char) : Prop where
  nonempty : cs ≠ []
  all : ∀ c ∈ cs, Numeral.isDigit c = true

/-- The fraction of a number, if it has one. -/
inductive IsFraction : List Char → Prop
  | none : IsFraction []
  | digits {ds : List Char} (digits : IsDigits ds) : IsFraction ('.' :: ds)

/-- The exponent of a number, if it has one. -/
inductive IsExponent : List Char → Prop
  | none : IsExponent []
  | digits {e : Char} {sign ds : List Char} (letter : e = 'e' ∨ e = 'E')
      (signed : sign = [] ∨ sign = ['+'] ∨ sign = ['-']) (digits : IsDigits ds) :
      IsExponent (e :: (sign ++ ds))

/-- A number. A leading zero stands alone. -/
inductive IsNumber : List Char → Prop
  | mk {sign ds fraction exponent : List Char} (signed : sign = [] ∨ sign = ['-'])
      (digits : IsDigits ds) (zero : ds.head? = some '0' → ds = ['0'])
      (is_fraction : IsFraction fraction) (is_exponent : IsExponent exponent) :
      IsNumber (sign ++ (ds ++ (fraction ++ exponent)))

/-! ### Values -/

mutual

/-- The texts of values. -/
inductive IsValue : List Char → Prop
  | null : IsValue ['n', 'u', 'l', 'l']
  | true : IsValue ['t', 'r', 'u', 'e']
  | false : IsValue ['f', 'a', 'l', 's', 'e']
  | number {cs : List Char} (number : IsNumber cs) : IsValue cs
  | string {cs : List Char} (string : IsString cs) : IsValue ('"' :: (cs ++ ['"']))
  | array {vs : List (List Char)} {cs : List Char} (array : IsArray vs cs) : IsValue cs
  | object {ms : List (List Char × List Char)} {cs : List Char} (object : IsObject ms cs) :
      IsValue cs

/-- The texts of arrays with these items. -/
inductive IsArray : List (List Char) → List Char → Prop
  | empty {b : List Char} (blanks : Blanks b) : IsArray [] ('[' :: (b ++ [']']))
  | items {v : List Char} {vs : List (List Char)} {b cs : List Char} (blanks : Blanks b)
      (first : IsValue v) (others : IsItems vs cs) : IsArray (v :: vs) ('[' :: (b ++ (v ++ cs)))

/-- The texts of the items behind the first, with the closing bracket. -/
inductive IsItems : List (List Char) → List Char → Prop
  | nil {b : List Char} (blanks : Blanks b) : IsItems [] (b ++ [']'])
  | cons {v : List Char} {vs : List (List Char)} {a b cs : List Char} (before : Blanks a)
      (behind : Blanks b) (item : IsValue v) (others : IsItems vs cs) :
      IsItems (v :: vs) (a ++ ',' :: (b ++ (v ++ cs)))

/-- The texts of objects with these members, each the inside of its key and its value. -/
inductive IsObject : List (List Char × List Char) → List Char → Prop
  | empty {b : List Char} (blanks : Blanks b) : IsObject [] ('{' :: (b ++ ['}']))
  | members {k v : List Char} {ms : List (List Char × List Char)} {a b c cs : List Char}
      (blanks : Blanks a) (key : IsString k) (before : Blanks b) (behind : Blanks c)
      (first : IsValue v) (others : IsMembers ms cs) :
      IsObject ((k, v) :: ms) ('{' :: (a ++ '"' :: (k ++ '"' :: (b ++ ':' :: (c ++ (v ++ cs))))))

/-- The texts of the members behind the first, with the closing brace. -/
inductive IsMembers : List (List Char × List Char) → List Char → Prop
  | nil {b : List Char} (blanks : Blanks b) : IsMembers [] (b ++ ['}'])
  | cons {k v : List Char} {ms : List (List Char × List Char)} {a b c d cs : List Char}
      (before : Blanks a) (behind : Blanks b) (key : IsString k) (beforeColon : Blanks c)
      (behindColon : Blanks d) (value : IsValue v) (others : IsMembers ms cs) :
      IsMembers ((k, v) :: ms)
        (a ++ ',' :: (b ++ '"' :: (k ++ '"' :: (c ++ ':' :: (d ++ (v ++ cs))))))

end

/-- A document that is an array with these items. -/
inductive ArrayText (vs : List (List Char)) : List Char → Prop
  | mk {a b cs : List Char} (before : Blanks a) (array : IsArray vs cs) (behind : Blanks b) :
      ArrayText vs (a ++ (cs ++ b))

/-- A member, as the inside of its key and its value, has a name and the value. -/
def IsNamed (written : List Char × List Char) (m : String × List Char) : Prop :=
  Denotes written.1 m.1.toList ∧ written.2 = m.2

/-- A document that is an object with these members, each a name, which its key stands for, and the
text of its value. -/
inductive ObjectText (ms : List (String × List Char)) : List Char → Prop
  | mk {a b cs : List Char} {written : List (List Char × List Char)} (before : Blanks a)
      (object : IsObject written cs) (names : List.Forall₂ IsNamed written ms)
      (behind : Blanks b) : ObjectText ms (a ++ (cs ++ b))

theorem IsMembers.isValue {ms : List (List Char × List Char)} {cs : List Char}
    (h : IsMembers ms cs) : ∀ m ∈ ms, IsValue m.2 := by
  cases h with
  | nil => exact List.forall_mem_nil _
  | cons before behind key beforeColon behindColon value others =>
    exact List.forall_mem_cons.mpr ⟨value, others.isValue⟩

/-- The values of members are values. -/
theorem ObjectText.isValue {ms : List (String × List Char)} {text : List Char}
    (h : ObjectText ms text) : ∀ m ∈ ms, IsValue m.2 := by
  obtain @⟨_, _, _, written, -, object, names, -⟩ := h
  have hvalues : ∀ w ∈ written, IsValue w.2 := by
    cases object with
    | empty => exact List.forall_mem_nil _
    | members blanks key before behind first others =>
      exact List.forall_mem_cons.mpr ⟨first, others.isValue⟩
  clear object
  induction names with
  | nil => exact List.forall_mem_nil _
  | cons hname _ ih =>
    obtain ⟨hvalue, hvalues⟩ := List.forall_mem_cons.mp hvalues
    exact List.forall_mem_cons.mpr ⟨hname.2 ▸ hvalue, ih hvalues⟩

/-! ### Texts for parts -/

/-- Every string can be written. -/
theorem denotes_escaped (s : List Char) : Denotes (s.flatMap escapeChar) s := by
  induction s with
  | nil => exact .nil
  | cons c s ih =>
    rw [List.flatMap_cons]
    unfold escapeChar
    split
    case h_8 =>
      split
      · rename_i hcontrol
        have hunit := Denotes.codeUnit (Doc.number?_control hcontrol) (.inl (by omega)) ih
        rwa [Char.ofNat_toNat] at hunit
      · rename_i hcontrol
        exact .plain (Nat.le_of_not_lt hcontrol) ‹_› ‹_› ih
    all_goals exact .letter (by decide) ih

/-- Values make an array. -/
theorem exists_arrayText {vs : List (List Char)} (h : ∀ v ∈ vs, IsValue v) :
    ∃ text, ArrayText vs text := by
  have hitems : ∀ vs : List (List Char), (∀ v ∈ vs, IsValue v) → ∃ cs, IsItems vs cs := by
    intro vs
    induction vs with
    | nil => exact fun _ => ⟨_, .nil blanks_nil⟩
    | cons v vs ih =>
      intro h
      obtain ⟨hv, hvs⟩ := List.forall_mem_cons.mp h
      obtain ⟨cs, hcs⟩ := ih hvs
      exact ⟨_, .cons blanks_nil blanks_nil hv hcs⟩
  cases vs with
  | nil => exact ⟨_, .mk blanks_nil (.empty blanks_nil) blanks_nil⟩
  | cons v vs =>
    obtain ⟨hv, hvs⟩ := List.forall_mem_cons.mp h
    obtain ⟨cs, hcs⟩ := hitems vs hvs
    exact ⟨_, .mk blanks_nil (.items blanks_nil hv hcs) blanks_nil⟩

/-- Members with values make an object. -/
theorem exists_objectText {ms : List (String × List Char)} (h : ∀ m ∈ ms, IsValue m.2) :
    ∃ text, ObjectText ms text := by
  let written (m : String × List Char) : List Char × List Char :=
    (m.1.toList.flatMap escapeChar, m.2)
  have hmembers : ∀ ms : List (String × List Char), (∀ m ∈ ms, IsValue m.2) →
      ∃ cs, IsMembers (ms.map written) cs := by
    intro ms
    induction ms with
    | nil => exact fun _ => ⟨_, .nil blanks_nil⟩
    | cons m ms ih =>
      intro h
      obtain ⟨hm, hms⟩ := List.forall_mem_cons.mp h
      obtain ⟨cs, hcs⟩ := ih hms
      exact ⟨_, .cons blanks_nil blanks_nil (denotes_escaped _).isString blanks_nil blanks_nil hm
        hcs⟩
  have hnames : List.Forall₂ IsNamed (ms.map written) ms := by
    rw [List.forall₂_map_left_iff, List.forall₂_same]
    exact fun m _ => ⟨denotes_escaped _, rfl⟩
  have hobject : ∃ cs, IsObject (ms.map written) cs := by
    cases ms with
    | nil => exact ⟨_, .empty blanks_nil⟩
    | cons m ms =>
      obtain ⟨hm, hms⟩ := List.forall_mem_cons.mp h
      obtain ⟨cs, hcs⟩ := hmembers ms hms
      exact ⟨_, .members blanks_nil (denotes_escaped _).isString blanks_nil blanks_nil hm hcs⟩
  obtain ⟨cs, hcs⟩ := hobject
  exact ⟨_, .mk blanks_nil hcs hnames blanks_nil⟩

end Json

namespace Doc

open Json

/-! ### Reading strings -/

section

variable {c : Char} {cs s : List Char}

theorem pieces_plain (no_control : 0x20 ≤ c.toNat) (no_quote : c ≠ '"') (no_escape : c ≠ '\\')
    (cs : List Char) : pieces (c :: cs) = (.char c :: (pieces cs).1, (pieces cs).2) := by
  rw [pieces, if_neg (Nat.not_lt.mpr no_control)]
  all_goals grind

theorem pieces_letter {l : Char} (escape : (l, c) ∈ escapes) (cs : List Char) :
    pieces ('\\' :: l :: cs) = (.char c :: (pieces cs).1, (pieces cs).2) := by
  simp only [escapes, List.mem_cons, Prod.mk.injEq, List.not_mem_nil, or_false] at escape
  rcases escape with ⟨rfl, rfl⟩ | ⟨rfl, rfl⟩ | ⟨rfl, rfl⟩ | ⟨rfl, rfl⟩ | ⟨rfl, rfl⟩ | ⟨rfl, rfl⟩ |
    ⟨rfl, rfl⟩ | ⟨rfl, rfl⟩
  all_goals rfl

theorem pieces_codeUnit {a b d : Char} {n : Nat} (digits : Hex.number? [a, b, c, d] = some n)
    (cs : List Char) :
    pieces ('\\' :: 'u' :: a :: b :: c :: d :: cs) =
      (.codeUnit n :: (pieces cs).1, (pieces cs).2) := by
  rw [pieces]
  simp only [digits]

/-- A string is read to its end. -/
theorem exists_pieces (h : IsString cs) :
    ∃ ps, ∀ rest, pieces (cs ++ '"' :: rest) = (ps, .ok rest) := by
  induction h with
  | nil => exact ⟨[], fun rest => rfl⟩
  | @plain c cs no_control no_quote no_escape others ih =>
    obtain ⟨ps, hps⟩ := ih
    refine ⟨.char c :: ps, fun rest => ?_⟩
    rw [List.cons_append, pieces_plain no_control no_quote no_escape, hps]
  | @letter l c cs escape others ih =>
    obtain ⟨ps, hps⟩ := ih
    refine ⟨.char c :: ps, fun rest => ?_⟩
    rw [List.cons_append, List.cons_append, pieces_letter escape, hps]
  | @codeUnit a b c d n cs digits others ih =>
    obtain ⟨ps, hps⟩ := ih
    refine ⟨.codeUnit n :: ps, fun rest => ?_⟩
    simp only [List.cons_append, pieces_codeUnit digits, hps]

theorem exists_stringRest (h : IsString cs) :
    ∃ reading, ∀ rest, stringRest (cs ++ '"' :: rest) = (reading, .ok rest) := by
  obtain ⟨ps, hps⟩ := exists_pieces h
  cases hs : assemble false ps with
  | some s => exact ⟨.ok (String.ofList s), fun rest => by simp only [stringRest, hps, hs]⟩
  | none => exact ⟨.error .malformed, fun rest => by simp only [stringRest, hps, hs]⟩

theorem assemble_codeUnit {n : Nat} (whole : n < 0xD800 ∨ 0xE000 ≤ n) (ps : List Piece) :
    assemble false (.codeUnit n :: ps) = (assemble false ps).map (Char.ofNat n :: ·) := by
  have hlow : isLow n = false := by
    simp only [isLow, Bool.and_eq_false_iff, decide_eq_false_iff_not]
    omega
  have hhigh : isHigh n = false := by
    simp only [isHigh, Bool.and_eq_false_iff, decide_eq_false_iff_not]
    omega
  simp [assemble.eq_def false (.codeUnit n :: ps), hlow, hhigh]

theorem assemble_pair {n m : Nat} (is_high : 0xD800 ≤ n ∧ n < 0xDC00)
    (is_low : 0xDC00 ≤ m ∧ m < 0xE000) (ps : List Piece) :
    assemble false (.codeUnit n :: .codeUnit m :: ps) = (assemble false ps).map
      (Char.ofNat (0x10000 + (n - 0xD800) * 0x400 + (m - 0xDC00)) :: ·) := by
  have hlow : isLow n = false := by
    simp only [isLow, Bool.and_eq_false_iff, decide_eq_false_iff_not]
    omega
  have hhigh : isHigh n = true := by simpa [isHigh] using is_high
  have hpartner : isLow m = true := by simpa [isLow] using is_low
  simp [assemble.eq_def false (.codeUnit n :: _), hlow, hhigh, hpartner]

/-- The pieces of a string are put together to the characters that it stands for. -/
theorem assemble_of_denotes (h : Denotes cs s) {ps : List Piece} {rest : List Char}
    (hps : pieces (cs ++ '"' :: rest) = (ps, .ok rest)) : assemble false ps = some s := by
  induction h generalizing ps with
  | nil =>
    cases hps
    rfl
  | plain no_control no_quote no_escape others ih =>
    obtain ⟨qs, hqs⟩ := exists_pieces others.isString
    rw [List.cons_append, pieces_plain no_control no_quote no_escape, hqs] at hps
    cases hps
    simp only [assemble, ih (hqs rest), Option.map_some]
  | letter escape others ih =>
    obtain ⟨qs, hqs⟩ := exists_pieces others.isString
    rw [List.cons_append, List.cons_append, pieces_letter escape, hqs] at hps
    cases hps
    simp only [assemble, ih (hqs rest), Option.map_some]
  | codeUnit digits whole others ih =>
    obtain ⟨qs, hqs⟩ := exists_pieces others.isString
    simp only [List.cons_append, pieces_codeUnit digits, hqs] at hps
    cases hps
    rw [assemble_codeUnit whole, ih (hqs rest), Option.map_some]
  | pair high is_high low is_low others ih =>
    obtain ⟨qs, hqs⟩ := exists_pieces others.isString
    simp only [List.cons_append, pieces_codeUnit high, pieces_codeUnit low, hqs] at hps
    cases hps
    rw [assemble_pair is_high is_low, ih (hqs rest), Option.map_some]

/-- A string is read as the characters that it stands for. -/
theorem stringRest_of_denotes (h : Denotes cs s) (rest : List Char) :
    stringRest (cs ++ '"' :: rest) = (.ok (String.ofList s), .ok rest) := by
  obtain ⟨ps, hps⟩ := exists_pieces h.isString
  simp only [stringRest, hps, assemble_of_denotes h (hps rest)]

end

/-! ### Reading numbers -/

/-- What may stand behind a value: nothing, a blank, or a sign that goes on or closes. -/
def Ends (rest : List Char) : Prop :=
  ∀ c, rest.head? = some c → isBlank c = true ∨ c = ',' ∨ c = ']' ∨ c = '}'

/-- No number goes on there. -/
theorem Ends.head_ne {rest : List Char} (h : Ends rest) {c : Char} (hc : rest.head? = some c) :
    Numeral.isDigit c = false ∧ c ≠ '.' ∧ c ≠ 'e' ∧ c ≠ 'E' := by
  have hblank : isBlank c = true ↔ c = ' ' ∨ c = '\n' ∨ c = '\t' ∨ c = '\r' := by
    simp [isBlank, or_assoc]
  have hcases := h c hc
  rw [hblank] at hcases
  rcases hcases with (rfl | rfl | rfl | rfl) | rfl | rfl | rfl
  all_goals decide

section

variable {cs ds rest : List Char}

/-- Digits are read to the last. -/
theorem digits_append (h : IsDigits ds)
    (hrest : ∀ c, rest.head? = some c → Numeral.isDigit c = false) :
    Numeral.digits (ds ++ rest) = .ok (ds, rest) := by
  obtain ⟨c, cs, rfl⟩ := List.exists_cons_of_ne_nil h.nonempty
  have htake : rest.takeWhile Numeral.isDigit = [] ∧ rest.dropWhile Numeral.isDigit = rest := by
    cases rest with
    | nil => exact ⟨rfl, rfl⟩
    | cons c rest =>
      have hc := hrest c rfl
      exact ⟨List.takeWhile_cons_of_neg (by simp [hc]), List.dropWhile_cons_of_neg (by simp [hc])⟩
  have hdigit : Numeral.isDigit c = true := h.all c (List.mem_cons_self ..)
  rw [List.cons_append, Numeral.digits, if_pos hdigit, ← List.cons_append,
    List.takeWhile_append_of_pos h.all, List.dropWhile_append_of_pos h.all, htake.1, htake.2,
    List.append_nil]

theorem exists_scanExponent (h : IsExponent cs) (n : Numeral) :
    ∃ n', ∀ rest, Ends rest → Numeral.scanExponent n (cs ++ rest) = .ok (n', rest) := by
  cases h with
  | none =>
    refine ⟨n, fun rest hrest => ?_⟩
    cases rest with
    | nil => rfl
    | cons c rest =>
      obtain ⟨-, -, he, hE⟩ := hrest.head_ne rfl
      unfold Numeral.scanExponent
      simp [he, hE]
  | @digits e sign ds letter signed digits =>
    refine ⟨{ n with exponent := some (sign == ['-'], ds) }, fun rest hrest => ?_⟩
    have hdigits := digits_append digits fun c hc => (hrest.head_ne hc).1
    have hunsigned : ∀ cs, ds ++ rest ≠ '+' :: cs ∧ ds ++ rest ≠ '-' :: cs := by
      obtain ⟨c, ds, rfl⟩ := List.exists_cons_of_ne_nil digits.nonempty
      have hc := digits.all c (List.mem_cons_self ..)
      refine fun cs => ⟨fun h => ?_, fun h => ?_⟩
      all_goals
        obtain ⟨rfl, -⟩ := List.cons.inj h
        exact absurd hc (by decide)
    rcases signed with rfl | rfl | rfl
    · rw [List.nil_append, List.cons_append, Numeral.scanExponent, if_pos letter]
      · simp only [hdigits]
        rfl
      · exact fun cs => (hunsigned cs).1
      · exact fun cs => (hunsigned cs).2
    all_goals
      simp only [List.cons_append, List.nil_append, Numeral.scanExponent, if_pos letter, hdigits]
      rfl

/-- Neither an exponent nor what stands behind a number begins with a digit or a point. -/
theorem head_exponent (h : IsExponent cs) (hrest : Ends rest) {c : Char}
    (hc : (cs ++ rest).head? = some c) : Numeral.isDigit c = false ∧ c ≠ '.' := by
  cases h with
  | none =>
    obtain ⟨hdigit, hpoint, -⟩ := hrest.head_ne hc
    exact ⟨hdigit, hpoint⟩
  | digits letter =>
    obtain rfl := Option.some.inj hc
    rcases letter with rfl | rfl
    all_goals decide

theorem exists_scanFraction (h : IsFraction cs) (h' : IsExponent ds) (n : Numeral) :
    ∃ n', ∀ rest, Ends rest → Numeral.scanFraction n (cs ++ (ds ++ rest)) = .ok (n', rest) := by
  cases h with
  | none =>
    obtain ⟨n', hn'⟩ := exists_scanExponent h' n
    refine ⟨n', fun rest hrest => ?_⟩
    have hpoint : ∀ more, ds ++ rest ≠ '.' :: more := fun more hmore =>
      (head_exponent h' hrest (by rw [hmore]; rfl)).2 rfl
    rw [List.nil_append, Numeral.scanFraction]
    · exact hn' rest hrest
    · exact hpoint
  | digits digits =>
    obtain ⟨n', hn'⟩ := exists_scanExponent h' { n with fraction := _ }
    refine ⟨n', fun rest hrest => ?_⟩
    have hdigits := digits_append digits fun c hc => (head_exponent h' hrest hc).1
    simp only [List.cons_append, Numeral.scanFraction, hdigits]
    exact hn' rest hrest

/-- A number is read to its end. -/
theorem exists_scan (h : IsNumber cs) :
    ∃ n, ∀ rest, Ends rest → Numeral.scan (cs ++ rest) = .ok (n, rest) := by
  obtain @⟨sign, ds, fraction, exponent, signed, digits, zero, is_fraction, is_exponent⟩ := h
  obtain ⟨n, hn⟩ := exists_scanFraction is_fraction is_exponent ⟨sign == ['-'], ds, [], none⟩
  refine ⟨n, fun rest hrest => ?_⟩
  have hhead : ∀ c, (fraction ++ (exponent ++ rest)).head? = some c →
      Numeral.isDigit c = false := by
    intro c hc
    cases is_fraction with
    | none => exact (head_exponent is_exponent hrest hc).1
    | digits => cases hc; rfl
  have hwhole : Numeral.scanWhole (sign == ['-']) (ds ++ (fraction ++ (exponent ++ rest))) =
      .ok (n, rest) := by
    have hzero : ¬ (ds.head? = some '0' ∧ 1 < ds.length) := by
      rintro ⟨hzero, hlength⟩
      rw [zero hzero] at hlength
      exact absurd hlength (by decide)
    rw [Numeral.scanWhole, digits_append digits hhead]
    simp only [if_neg hzero]
    exact hn rest hrest
  simp only [List.append_assoc]
  rcases signed with rfl | rfl
  · rw [List.nil_append, Numeral.scan]
    · exact hwhole
    · intro more hmore
      obtain ⟨c, ds, rfl⟩ := List.exists_cons_of_ne_nil digits.nonempty
      obtain ⟨rfl, -⟩ := List.cons.inj hmore
      exact absurd (digits.all _ (List.mem_cons_self ..)) (by decide)
  · exact hwhole

end

/-! ### Reading values -/

/-- A text is read as a document, whatever stands behind it. -/
def Reads (cs : List Char) (d : Doc) : Prop :=
  ∀ fuel rest, 2 * cs.length < fuel + 2 → Ends rest →
    value (fuel + 1) (cs ++ rest) = (d, some rest)

/-- The inside of a key is read, and so is its value. -/
inductive ReadsMember : List Char × List Char → Key × Doc → Prop
  | mk {k v : List Char} {key : Except Fault String} {d : Doc}
      (key_reads : ∀ rest, stringRest (k ++ '"' :: rest) = (key, .ok rest)) (value_reads : Reads v d) :
      ReadsMember (k, v) (.text key, d)

theorem ends_append_cons {b : List Char} (hb : Blanks b) {c : Char}
    (hc : c = ',' ∨ c = ']' ∨ c = '}') (cs : List Char) : Ends (b ++ c :: cs) := by
  intro c' hhead
  cases b with
  | nil =>
    obtain rfl := Option.some.inj hhead
    exact .inr hc
  | cons a b =>
    obtain rfl := Option.some.inj hhead
    exact .inl (hb _ (List.mem_cons_self ..))

theorem ends_items {vs : List (List Char)} {cs : List Char} (h : IsItems vs cs)
    (rest : List Char) : Ends (cs ++ rest) := by
  cases h with
  | nil blanks =>
    rw [List.append_assoc]
    exact ends_append_cons blanks (.inr (.inl rfl)) _
  | cons before =>
    rw [List.append_assoc]
    exact ends_append_cons before (.inl rfl) _

theorem ends_members {ms : List (List Char × List Char)} {cs : List Char} (h : IsMembers ms cs)
    (rest : List Char) : Ends (cs ++ rest) := by
  cases h with
  | nil blanks =>
    rw [List.append_assoc]
    exact ends_append_cons blanks (.inr (.inr rfl)) _
  | cons before =>
    rw [List.append_assoc]
    exact ends_append_cons before (.inl rfl) _

/-- A number begins with a minus sign or a digit. -/
theorem head_of_isNumber {cs : List Char} (h : IsNumber cs) :
    ∃ c rest, cs = c :: rest ∧ (c = '-' ∨ Numeral.isDigit c = true) := by
  obtain ⟨signed, digits, -, -, -⟩ := h
  obtain ⟨c, ds, rfl⟩ := List.exists_cons_of_ne_nil digits.nonempty
  rcases signed with rfl | rfl
  · exact ⟨c, _, rfl, .inr (digits.all c (List.mem_cons_self ..))⟩
  · exact ⟨'-', _, rfl, .inl rfl⟩

/-- Nothing else begins like a number. -/
theorem ne_of_number {c : Char} (hc : c = '-' ∨ Numeral.isDigit c = true) :
    ∀ c' ∈ [' ', '\n', '\t', '\r', ']', 'n', 't', 'f', '"', '[', '{'], c ≠ c' := by
  rintro c' hc' rfl
  simp only [List.mem_cons, List.not_mem_nil, or_false] at hc'
  rcases hc' with rfl | rfl | rfl | rfl | rfl | rfl | rfl | rfl | rfl | rfl | rfl
  all_goals exact absurd hc (by decide)

theorem value_number {fuel : Nat} {c : Char} (hc : c = '-' ∨ Numeral.isDigit c = true)
    (cs : List Char) : value (fuel + 1) (c :: cs) = numberAt (c :: cs) := by
  have hne := ne_of_number hc
  simp only [List.forall_mem_cons] at hne
  obtain ⟨hspace, hnewline, htab, hreturn, -, hn, ht, hf, hquote, harray, hobject, -⟩ := hne
  have hblank : isBlank c = false := by
    simp [isBlank, hspace, hnewline, htab, hreturn]
  rw [value, skipBlanks_cons hblank]
  simp only [if_pos hc]

/-- What a numeral is read as: its number, if it has one. -/
def ofNumeral (n : Numeral) : Doc :=
  .number (match n.value? with
    | some v => .ok v
    | none => .error .malformed)

theorem numberAt_of_scan {cs rest : List Char} {n : Numeral}
    (h : Numeral.scan cs = .ok (n, rest)) : numberAt cs = (ofNumeral n, some rest) := by
  rw [numberAt, h]
  rfl

/-- A value begins with a character that ends no array. -/
theorem head_of_isValue {cs : List Char} (h : IsValue cs) :
    ∃ c rest, cs = c :: rest ∧ isBlank c = false ∧ c ≠ ']' := by
  cases h with
  | number number =>
    obtain ⟨c, rest, rfl, hc⟩ := head_of_isNumber number
    have hne := ne_of_number hc
    exact ⟨c, rest, rfl, by simp [isBlank, hne], hne ']' (by decide)⟩
  | null | true | false | string => exact ⟨_, _, rfl, by decide, by decide⟩
  | array array => cases array <;> exact ⟨_, _, rfl, by decide, by decide⟩
  | object object => cases object <;> exact ⟨_, _, rfl, by decide, by decide⟩

-- The five kinds of texts are gone through together, by the derivation. The first item or member
-- has been read when its list goes on, so what is given of it is its reading.
mutual

/-- **Every value of the grammar is read, and can be skipped.** -/
theorem exists_reads {cs : List Char} (h : IsValue cs) :
    ∃ d, Reads cs d ∧ Decode.skip d = .ok () := by
  match cs, h with
  | _, .null => exact ⟨.null, fun _ _ _ _ => rfl, rfl⟩
  | _, .true => exact ⟨.bool true, fun _ _ _ _ => rfl, rfl⟩
  | _, .false => exact ⟨.bool false, fun _ _ _ _ => rfl, rfl⟩
  | cs, .number hnumber =>
    obtain ⟨n, hn⟩ := exists_scan hnumber
    obtain ⟨c, cs, rfl, hc⟩ := head_of_isNumber hnumber
    refine ⟨ofNumeral n, fun fuel rest _ hrest => ?_, rfl⟩
    rw [List.cons_append, value_number hc]
    exact numberAt_of_scan (hn rest hrest)
  | _, .string hstring =>
    obtain ⟨reading, hreading⟩ := exists_stringRest hstring
    refine ⟨.string reading, fun fuel rest _ _ => ?_, rfl⟩
    rw [List.cons_append, List.append_assoc, List.singleton_append, value, skipBlanks_cons rfl]
    simp only [hreading]
  | cs, .array harray =>
    obtain ⟨ds, -, hreads, hskip⟩ := exists_reads_array harray
    exact ⟨_, hreads, hskip⟩
  | cs, .object hobject =>
    obtain ⟨ms, -, hreads, hskip⟩ := exists_reads_object hobject
    exact ⟨_, hreads, hskip⟩
termination_by (cs.length, 1)
decreasing_by all_goals simp [Prod.lex_def]

/-- An array is read item by item. -/
theorem exists_reads_array {vs : List (List Char)} {cs : List Char} (h : IsArray vs cs) :
    ∃ ds, List.Forall₂ Reads vs ds ∧ Reads cs (.array ds .closed) ∧
      Decode.skip (.array ds .closed) = .ok () := by
  cases h with
  | empty blanks =>
    refine ⟨[], .nil, fun fuel rest _ _ => ?_, rfl⟩
    simp only [List.cons_append, List.append_assoc]
    exact value_emptyArray (skipBlanks_append_cons blanks rfl rest)
  | @items v vs b cs blanks first others =>
    obtain ⟨d, hd, hskip⟩ := exists_reads first
    obtain ⟨ds, hds, hitems, hskips⟩ := exists_reads_items others
    refine ⟨d :: ds, .cons hd hds, fun fuel rest hfuel _ => ?_, ?_⟩
    · obtain ⟨c, v, rfl, hblank, hc⟩ := head_of_isValue first
      simp only [List.cons_append, List.append_assoc, List.length_append, List.length_cons]
        at hfuel hd ⊢
      obtain ⟨fuel, rfl⟩ : ∃ n, fuel = n + 2 := ⟨fuel - 2, by omega⟩
      refine value_array (skipBlanks_append_cons blanks hblank _) hc ?_
      refine hitems fuel _ rest d (by omega) ?_
      exact hd fuel _ (by rw [List.length_cons]; omega) (ends_items others rest)
    · rw [Decode.skip, Decode.skipItems, hskip]
      exact hskips
termination_by (cs.length, 0)
decreasing_by all_goals simp [Prod.lex_def]; omega

/-- What stands behind an item is read item by item. -/
theorem exists_reads_items {vs : List (List Char)} {cs : List Char} (h : IsItems vs cs) :
    ∃ ds, List.Forall₂ Reads vs ds ∧
      (∀ fuel first rest d, 2 * cs.length < fuel + 2 →
        value (fuel + 1) first = (d, some (cs ++ rest)) →
        items (fuel + 2) first = (d :: ds, .closed, some rest)) ∧
      Decode.skip (.array ds .closed) = .ok () := by
  cases h with
  | nil blanks =>
    refine ⟨[], .nil, fun fuel first rest d _ hfirst => ?_, rfl⟩
    rw [List.append_assoc] at hfirst
    exact items_last hfirst (skipBlanks_append_cons blanks rfl rest)
  | @cons v vs a b cs before behind item others =>
    obtain ⟨d', hd, hskip⟩ := exists_reads item
    obtain ⟨ds, hds, hitems, hskips⟩ := exists_reads_items others
    refine ⟨d' :: ds, .cons hd hds, fun fuel first rest d hfuel hfirst => ?_, ?_⟩
    · obtain ⟨c, v, rfl, hblank, hc⟩ := head_of_isValue item
      simp only [List.append_assoc, List.cons_append, List.length_append, List.length_cons]
        at hfuel hfirst hd
      obtain ⟨fuel, rfl⟩ : ∃ n, fuel = n + 1 := ⟨fuel - 1, by omega⟩
      refine items_more hfirst (skipBlanks_append_cons before rfl _)
        (skipBlanks_append_cons behind hblank _) hc ?_
      refine hitems fuel _ rest d' (by omega) ?_
      exact hd fuel _ (by rw [List.length_cons]; omega) (ends_items others rest)
    · rw [Decode.skip, Decode.skipItems, hskip]
      exact hskips
termination_by (cs.length, 0)
decreasing_by all_goals simp [Prod.lex_def]; omega

/-- An object is read member by member. -/
theorem exists_reads_object {ms : List (List Char × List Char)} {cs : List Char}
    (h : IsObject ms cs) :
    ∃ ds, List.Forall₂ ReadsMember ms ds ∧ Reads cs (.object ds .closed) ∧
      Decode.skip (.object ds .closed) = .ok () := by
  cases h with
  | empty blanks =>
    refine ⟨[], .nil, fun fuel rest _ _ => ?_, rfl⟩
    simp only [List.cons_append, List.append_assoc]
    exact value_emptyObject (skipBlanks_append_cons blanks rfl rest)
  | @members k v ms a b c cs blanks key before behind first others =>
    obtain ⟨reading, hkey⟩ := exists_stringRest key
    obtain ⟨d, hd, hskip⟩ := exists_reads first
    obtain ⟨ds, hds, hmembers, hskips⟩ := exists_reads_members others
    refine ⟨(.text reading, d) :: ds, .cons (.mk hkey hd) hds, fun fuel rest hfuel _ => ?_, ?_⟩
    · simp only [List.cons_append, List.append_assoc, List.length_append, List.length_cons]
        at hfuel ⊢
      obtain ⟨fuel, rfl⟩ : ∃ n, fuel = n + 2 := ⟨fuel - 2, by omega⟩
      refine value_object (skipBlanks_append_cons blanks rfl _) ?_
      refine hmembers fuel reading _ _ _ rest d (by omega) (hkey _)
        (skipBlanks_append_cons before rfl _) ?_
      rw [value_append behind]
      exact hd fuel _ (by omega) (ends_members others rest)
    · rw [Decode.skip, Decode.skipMembers, hskip]
      exact hskips
termination_by (cs.length, 0)
decreasing_by all_goals simp [Prod.lex_def]; omega

/-- What stands behind a member is read member by member. -/
theorem exists_reads_members {ms : List (List Char × List Char)} {cs : List Char}
    (h : IsMembers ms cs) :
    ∃ ds, List.Forall₂ ReadsMember ms ds ∧
      (∀ fuel key first colon text rest d, 2 * cs.length < fuel + 2 →
        stringRest first = (key, .ok colon) → skipBlanks colon = ':' :: text →
        value (fuel + 1) text = (d, some (cs ++ rest)) →
        members (fuel + 2) ('"' :: first) = ((.text key, d) :: ds, .closed, some rest)) ∧
      Decode.skip (.object ds .closed) = .ok () := by
  cases h with
  | nil blanks =>
    refine ⟨[], .nil, fun fuel key first colon text rest d _ hkey hcolon hfirst => ?_, rfl⟩
    rw [List.append_assoc] at hfirst
    exact members_last hkey hcolon hfirst (skipBlanks_append_cons blanks rfl rest)
  | @cons k v ms a b c d cs before behind key beforeColon behindColon value others =>
    obtain ⟨reading, hreading⟩ := exists_stringRest key
    obtain ⟨d', hd, hskip⟩ := exists_reads value
    obtain ⟨ds, hds, hmembers, hskips⟩ := exists_reads_members others
    refine ⟨(.text reading, d') :: ds, .cons (.mk hreading hd) hds,
      fun fuel key first colon text rest d hfuel hkey hcolon hfirst => ?_, ?_⟩
    · simp only [List.append_assoc, List.cons_append, List.length_append, List.length_cons]
        at hfuel hfirst
      obtain ⟨fuel, rfl⟩ : ∃ n, fuel = n + 1 := ⟨fuel - 1, by omega⟩
      refine members_more hkey hcolon hfirst (skipBlanks_append_cons before rfl _)
        (skipBlanks_append_cons behind rfl _) ?_
      refine hmembers fuel reading _ _ _ rest d' (by omega) (hreading _)
        (skipBlanks_append_cons beforeColon rfl _) ?_
      rw [value_append behindColon]
      exact hd fuel _ (by omega) (ends_members others rest)
    · rw [Decode.skip, Decode.skipMembers, hskip]
      exact hskips
termination_by (cs.length, 0)
decreasing_by all_goals simp [Prod.lex_def]; omega

end

/-! ### Whole documents -/

/-- The document that a text is read as. -/
def ofText (cs : List Char) : Doc := (read cs).1

theorem ends_blanks {b : List Char} (hb : Blanks b) : Ends b := fun c hc =>
  .inl (hb c (List.mem_of_head? hc))

/-- A document is what its value is read as, with blanks around it. -/
theorem Reads.read_eq {cs : List Char} {d : Doc} (h : Reads cs d) {a b : List Char}
    (ha : Blanks a) (hb : Blanks b) : read (a ++ (cs ++ b)) = (d, none) := by
  have hvalue : value (2 * (a ++ (cs ++ b)).length + 2) (a ++ (cs ++ b)) = (d, some b) := by
    rw [value_append ha]
    exact h _ b (by simp only [List.length_append]; omega) (ends_blanks hb)
  have hrest : (skipBlanks b).isEmpty = true := by
    rw [← List.append_nil b, skipBlanks_append hb]
    rfl
  rw [read, hvalue]
  simp only [hrest, ↓reduceIte]

theorem Reads.ofText_eq {cs : List Char} {d : Doc} (h : Reads cs d) : ofText cs = d := by
  have hread := h.read_eq blanks_nil blanks_nil
  rw [List.append_nil, List.nil_append] at hread
  rw [ofText, hread]

/-- A value of the grammar can be skipped. -/
theorem skip_ofText {cs : List Char} (h : IsValue cs) : Decode.skip (ofText cs) = .ok () := by
  obtain ⟨d, hreads, hskip⟩ := exists_reads h
  rw [hreads.ofText_eq, hskip]

/-- A member with a name is read as the member with that name. -/
theorem ReadsMember.eq_of_isNamed {written : List Char × List Char} {m : String × List Char}
    {p : Key × Doc} (h : ReadsMember written p) (hname : IsNamed written m) :
    p = (.text (.ok m.1), ofText m.2) := by
  obtain ⟨key_reads, value_reads⟩ := h
  obtain ⟨hkey, hvalue⟩ := hname
  have hread := (key_reads []).symm.trans (stringRest_of_denotes hkey [])
  obtain ⟨rfl, -⟩ := Prod.mk.inj hread
  rw [String.ofList_toList, ← hvalue, value_reads.ofText_eq]

/-- **An array is read item by item.** -/
theorem read_arrayText {vs : List (List Char)} {text : List Char} (h : ArrayText vs text) :
    read text = (.array (vs.map ofText) .closed, none) := by
  obtain ⟨before, array, behind⟩ := h
  obtain ⟨ds, hds, hreads, -⟩ := exists_reads_array array
  have hitems : ds = vs.map ofText := by
    clear hreads array
    induction hds with
    | nil => rfl
    | cons hd _ ih => rw [List.map_cons, hd.ofText_eq, ih]
  rw [hreads.read_eq before behind, hitems]

/-- **An object is read member by member.** -/
theorem read_objectText {ms : List (String × List Char)} {text : List Char}
    (h : ObjectText ms text) :
    read text = (.object (ms.map fun m => (.text (.ok m.1), ofText m.2)) .closed, none) := by
  obtain ⟨before, object, names, behind⟩ := h
  obtain ⟨ds, hds, hreads, -⟩ := exists_reads_object object
  have hmembers : ds = ms.map fun m => (.text (.ok m.1), ofText m.2) := by
    clear hreads object
    induction names generalizing ds with
    | nil =>
      cases hds
      rfl
    | cons hname _ ih =>
      cases hds with
      | cons hmember hds => rw [List.map_cons, hmember.eq_of_isNamed hname, ← ih _ hds]
  rw [hreads.read_eq before behind, hmembers]

end Doc

end Capsule
