import Capsule.Files

/-!
# Texts and their bytes

`Utf8.encode` takes the bytes of a text from the library, and `Utf8.decode?` reads bytes by rules of
its own. This file proves that every text is read back from its bytes, so that a file which holds
the bytes of a text is read as that text.

The bytes of a character are one, two, three or four, and the ranges that `Utf8.lead` gives for the
second of them are the point: with three bytes the range has to leave out the surrogates, and with
three and four bytes the code points that are written with fewer. Each range is therefore compared
with the code points that have a leading byte in common, in `Utf8.lead_three` and `Utf8.lead_four`,
and the bytes after that are six bits each.

## Main results

* `Utf8.decode?_encode`: a text is read back from its bytes
* `Files.read_of_entry`: and so it is from a file
-/

namespace Capsule

namespace Utf8

/-! ### One character -/

theorem lead_two {v : Nat} (hlow : 0x80 ≤ v) (hhigh : v < 0x800) :
    lead (v / 64 + 0xC0) = some ⟨v / 64, 1, 0x80, 0xBF⟩ := by
  rw [lead, if_neg (by omega), if_neg (by omega), if_pos (by omega), Nat.add_sub_cancel]

theorem lead_three {v : Nat} (hlow : 0x800 ≤ v) (hhigh : v < 0x10000)
    (hvalid : v < 0xD800 ∨ 0xDFFF < v) :
    ∃ low high, lead (v / 4096 + 0xE0) = some ⟨v / 4096, 2, low, high⟩ ∧
      low ≤ v / 64 % 64 + 0x80 ∧ v / 64 % 64 + 0x80 ≤ high := by
  by_cases hfirst : v / 4096 = 0
  · exact ⟨0xA0, 0xBF, by simp [lead, hfirst], by omega, by omega⟩
  by_cases hsurrogate : v / 4096 = 0x0D
  · exact ⟨0x80, 0x9F, by simp [lead, hsurrogate], by omega, by omega⟩
  refine ⟨0x80, 0xBF, ?_, by omega, by omega⟩
  rw [lead, if_neg (by omega), if_neg (by omega), if_neg (by omega), if_neg (by omega),
    if_neg (by omega), if_pos (by omega), Nat.add_sub_cancel]

theorem lead_four {v : Nat} (hlow : 0x10000 ≤ v) (hhigh : v < 0x110000) :
    ∃ low high, lead (v / 262144 + 0xF0) = some ⟨v / 262144, 3, low, high⟩ ∧
      low ≤ v / 4096 % 64 + 0x80 ∧ v / 4096 % 64 + 0x80 ≤ high := by
  by_cases hfirst : v / 262144 = 0
  · exact ⟨0x90, 0xBF, by simp [lead, hfirst], by omega, by omega⟩
  by_cases hlast : v / 262144 = 4
  · exact ⟨0x80, 0x8F, by simp [lead, hlast], by omega, by omega⟩
  refine ⟨0x80, 0xBF, ?_, by omega, by omega⟩
  rw [lead, if_neg (by omega), if_neg (by omega), if_neg (by omega), if_neg (by omega),
    if_neg (by omega), if_neg (by omega), if_neg (by omega), if_pos (by omega), Nat.add_sub_cancel]

section

variable {n code low high acc part k : Nat} {bs rest : List UInt8} {c : Char}

/-- A continuation byte carries six bits of the code point. -/
theorem continuation_cons (hrange : low ≤ part + 0x80 ∧ part + 0x80 ≤ high) (hpart : part < 64)
    (hrest : continuation n 0x80 0xBF (acc * 64 + part) bs = (k, code, rest)) :
    continuation (n + 1) low high acc (UInt8.ofNat (part + 0x80) :: bs) = (k + 1, code, rest) := by
  have hbyte : (UInt8.ofNat (part + 0x80)).toNat = part + 0x80 := by
    rw [UInt8.toNat_ofNat', Nat.mod_eq_of_lt (by omega)]
  rw [continuation, hbyte, if_pos hrange, Nat.add_sub_cancel, hrest]

theorem next_of_lead (hn : n < 256) (hlead : lead n = some ⟨acc, k, low, high⟩)
    (hcode : continuation k low high acc bs = (k, code, rest)) (hc : Char.ofNat code = c) :
    next (UInt8.ofNat n) bs = (some c, rest) := by
  rw [next, UInt8.toNat_ofNat', Nat.mod_eq_of_lt hn, hlead]
  simp only [hcode, hc, if_pos]

end

/-- The bytes of a character are read as that character, whatever follows them. -/
theorem next_encodeChar (c : Char) (bs : List UInt8) :
    ∃ b tail, String.utf8EncodeChar c = b :: tail ∧ next b (tail ++ bs) = (some c, bs) := by
  have hvalid : c.val.toNat < 0xD800 ∨ 0xDFFF < c.val.toNat ∧ c.val.toNat < 0x110000 := c.valid
  have hchar : Char.ofNat c.val.toNat = c := Char.ofNat_toNat c
  rw [String.utf8EncodeChar]
  generalize c.val.toNat = v at hvalid hchar
  have hpart (n : Nat) : n % 64 < 64 := Nat.mod_lt n (by decide)
  have hbyte (n : Nat) : 0x80 ≤ n % 64 + 0x80 ∧ n % 64 + 0x80 ≤ 0xBF := by omega
  by_cases hone : v ≤ 0x7F
  · refine ⟨_, _, if_pos hone, ?_⟩
    exact next_of_lead (by omega) (by rw [lead, if_pos (by omega)]) rfl hchar
  by_cases htwo : v ≤ 0x7FF
  · refine ⟨_, _, (if_neg hone).trans (if_pos htwo), ?_⟩
    have hlead := lead_two (v := v) (by omega) (by omega)
    have hcode : v / 64 * 64 + v % 64 = v := by omega
    rw [Nat.mod_eq_of_lt (by omega)]
    exact next_of_lead (by omega) hlead (continuation_cons (hbyte v) (hpart v) rfl)
      (by rw [hcode, hchar])
  by_cases hthree : v ≤ 0xFFFF
  · refine ⟨_, _, (if_neg hone).trans ((if_neg htwo).trans (if_pos hthree)), ?_⟩
    obtain ⟨low, high, hlead, hsecond⟩ := lead_three (v := v) (by omega) (by omega) (by omega)
    have hcode : (v / 4096 * 64 + v / 64 % 64) * 64 + v % 64 = v := by omega
    rw [Nat.mod_eq_of_lt (by omega)]
    exact next_of_lead (by omega) hlead (continuation_cons hsecond (hpart _)
      (continuation_cons (hbyte v) (hpart v) rfl)) (by rw [hcode, hchar])
  · refine ⟨_, _, (if_neg hone).trans ((if_neg htwo).trans (if_neg hthree)), ?_⟩
    obtain ⟨low, high, hlead, hsecond⟩ := lead_four (v := v) (by omega) (by omega)
    have hcode : ((v / 262144 * 64 + v / 4096 % 64) * 64 + v / 64 % 64) * 64 + v % 64 = v := by
      omega
    rw [Nat.mod_eq_of_lt (by omega)]
    exact next_of_lead (by omega) hlead (continuation_cons hsecond (hpart _)
      (continuation_cons (hbyte _) (hpart _) (continuation_cons (hbyte v) (hpart v) rfl)))
      (by rw [hcode, hchar])

/-! ### Texts -/

theorem split_cons {b : UInt8} {bs rest : List UInt8} {c : Char}
    (h : next b bs = (some c, rest)) : split (b :: bs) = (c :: (split rest).1, (split rest).2) := by
  rw [split]
  grind

theorem split_flatMap_encodeChar (cs : List Char) :
    split (cs.flatMap String.utf8EncodeChar) = (cs, []) := by
  induction cs with
  | nil => rw [List.flatMap_nil, split]
  | cons c cs ih =>
    obtain ⟨b, tail, hbytes, hnext⟩ := next_encodeChar c (cs.flatMap String.utf8EncodeChar)
    rw [List.flatMap_cons, hbytes, List.cons_append, split_cons hnext, ih]

theorem toList_loop (bs : ByteArray) (i : Nat) (r : List UInt8) :
    ByteArray.toList.loop bs i r = r.reverse ++ bs.data.toList.drop i := by
  fun_induction ByteArray.toList.loop bs i r with
  | case1 i r hi ih =>
    have hlength : i < bs.data.toList.length := by simpa using hi
    rw [ih, List.drop_eq_getElem_cons hlength]
    simp [ByteArray.get!, hi]
  | case2 i r hi =>
    rw [List.drop_eq_nil_of_le (by simpa using Nat.le_of_not_lt hi), List.append_nil]

theorem encode_eq_flatMap (s : String) : encode s = s.toList.flatMap String.utf8EncodeChar := by
  have hbytes : s.toUTF8 = (s.toList.flatMap String.utf8EncodeChar).toByteArray := by
    rw [String.toUTF8, ← String.utf8Encode_toList, List.utf8Encode]
  rw [encode, hbytes, ByteArray.toList, toList_loop, List.drop_zero, List.reverse_nil,
    List.nil_append, List.toList_data_toByteArray]

/-- **A text is read back from its bytes.** -/
theorem decode?_encode (s : String) : decode? (encode s) = some s.toList := by
  rw [decode?, encode_eq_flatMap, split_flatMap_encodeChar]

end Utf8

/-- A file that holds the bytes of a text is read as that text. -/
theorem Files.read_of_entry {files : Files} {cwd : Place} {path text : String} {executable : Bool}
    (h : files.entry cwd path = .ok (.file (Utf8.encode text) executable)) :
    files.read cwd path = .ok text.toList := by
  rw [read, h]
  simp only [bind, Except.bind, Utf8.decode?_encode]

end Capsule
