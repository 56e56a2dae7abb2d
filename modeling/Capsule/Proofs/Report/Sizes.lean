import Capsule.Proofs.Double
import Capsule.Proofs.Json.Naturals
import Capsule.Report
import Mathlib.Tactic.NormNum

/-!
# Sizes as they are read

What a size is shown as is text, so what it says is what a reader takes from it: a number and a
unit (`Report.quantity?`). This file proves how far that may be from the number of bytes.

A size is rounded twice, to a double and to tenths of its unit, and the unit is picked before either
rounding. Both roundings are monotone, so within a unit a larger size is never shown as less. Where
the unit changes, what is shown below is at most 1024 of the smaller unit, and what is shown above
at least one of the larger, which is the same. So the order is kept there too, but only just: the
sizes that come next below a unit are shown as 1024 of the unit before it.

## Main definitions

* `Report.quantity?`: what is read of a size
* `Report.Shows`: the tenths and the unit that a size is shown in

## Main results

* `Report.exists_shows`: every size but the one without limit is read as what it shows
* `Report.Shows.bytes_le`: the order of sizes is kept
* `Report.sizes_in_order`, `Report.size_within_unit`
-/

namespace Capsule.Report

/-- A number of a unit, which is a number of bytes. -/
structure Quantity where
  number : ℚ
  unit : ℕ
deriving DecidableEq

def Quantity.bytes (q : Quantity) : ℚ := q.number * q.unit

/-! ### Reading a size -/

/-- A number in decimal notation, with or without a fraction. -/
def decimal? (cs : List Char) : Option ℚ :=
  match cs.splitOn '.' with
  | [whole] => (Numeral.ofDigits? whole).map (↑)
  | [whole, fraction] => do
    let w ← Numeral.ofDigits? whole
    let f ← Numeral.ofDigits? fraction
    return w + f / 10 ^ fraction.length
  | _ => none

/-- The bytes of a unit. -/
def unit? (cs : List Char) : Option ℕ :=
  [("B", 1), ("KiB", 2 ^ 10), ("MiB", 2 ^ 20), ("GiB", 2 ^ 30)].lookup (String.ofList cs)

/-- What is read of a size: a number and a unit. -/
def quantity? (text : String) : Option Quantity :=
  match text.toList.splitOn ' ' with
  | [number, unit] => do return ⟨← decimal? number, ← unit? unit⟩
  | _ => none

variable {n : ℕ}

/-- A text of two words. -/
theorem splitOn_pair {sep : Char} {first second : List Char} (hfirst : sep ∉ first)
    (hsecond : sep ∉ second) : (first ++ sep :: second).splitOn sep = [first, second] := by
  rw [List.splitOn_append_cons_self_of_not_mem hfirst, List.splitOn_eq_singleton hsecond]

theorem decimal?_natChars (n : ℕ) : decimal? (Json.natChars n) = some n := by
  rw [decimal?, List.splitOn_eq_singleton (Numeral.notMem_natChars (by decide))]
  simp only [Numeral.ofDigits?_natChars]
  rfl

/-- Tenths are read as tenths. -/
theorem decimal?_tenths (t : ℕ) :
    decimal? (Json.natChars (t / 10) ++ '.' :: Json.natChars (t % 10)) = some ((t : ℚ) / 10) := by
  have hlength : (Json.natChars (t % 10)).length = 1 := by
    rw [Json.natChars, Nat.toDigits_of_lt_base (Nat.mod_lt t (by norm_num))]
    rfl
  have ht : (t : ℚ) = 10 * (t / 10 : ℕ) + (t % 10 : ℕ) := by
    exact_mod_cast (Nat.div_add_mod t 10).symm
  have hdot (n : ℕ) : '.' ∉ Json.natChars n := Numeral.notMem_natChars (by decide)
  rw [decimal?, splitOn_pair (hdot _) (hdot _)]
  simp only [Numeral.ofDigits?_natChars, hlength]
  refine congrArg some ?_
  rw [ht]
  field_simp

theorem quantity?_of_parts {text : String} {number unit : List Char} {x : ℚ} {u : ℕ}
    (htext : text.toList = number ++ ' ' :: unit) (hnumber : ' ' ∉ number) (hunit : ' ' ∉ unit)
    (hx : decimal? number = some x) (hu : unit? unit = some u) : quantity? text = some ⟨x, u⟩ := by
  rw [quantity?, htext, splitOn_pair hnumber hunit]
  simp only [hx, hu]
  rfl

/-! ### What a size shows -/

/-- The unit of a size: the largest that it reaches. -/
def unitOf (n : ℕ) : ℕ :=
  if 2 ^ 30 ≤ n then 2 ^ 30 else if 2 ^ 20 ≤ n then 2 ^ 20 else if 2 ^ 10 ≤ n then 2 ^ 10 else 1

/-- A quantity is shown for a size: in the size's unit, and to the nearest tenth of the double that
stands for the size. -/
structure Shows (n : ℕ) (q : Quantity) : Prop where
  unit : q.unit = unitOf n
  number : ∃ tenths : ℕ,
    Double.IsNearest tenths (10 * ((Double.ofNat n).value / unitOf n)) ∧ q.number = tenths / 10

/-- A size in its unit. -/
theorem exists_shows_inUnit (name : String) (k : ℕ) (hk : k ≤ 64) (hlow : 2 ^ k ≤ n)
    (hhigh : n ≤ 2 ^ 64) (hunit : unitOf n = 2 ^ k) (hname : unit? name.toList = some (2 ^ k))
    (hspace : ' ' ∉ name.toList) :
    ∃ q, quantity? (inUnit n (2 ^ k) name) = some q ∧ Shows n q := by
  obtain ⟨d, hd⟩ : ∃ d, d = (Double.ofNat n).div (.ofNat (2 ^ k)) := ⟨_, rfl⟩
  obtain ⟨tenths, ht⟩ : ∃ t, t = Double.roundDiv (10 * d.ratio.1) d.ratio.2 := ⟨_, rfl⟩
  have hvalue : d.value = (Double.ofNat n).value / 2 ^ k := by
    rw [hd]
    refine Double.value_div (Double.value_ofNat_two_pow hk) (by omega) ?_ ?_
    · exact Double.two_pow_le_value (Nat.zero_le 64) (Nat.one_le_two_pow.trans hlow) hhigh
    · exact Double.value_le_two_pow le_rfl hhigh
  have htext : inUnit n (2 ^ k) name =
      toString (tenths / 10) ++ "." ++ toString (tenths % 10) ++ " " ++ name := by
    rw [ht, hd]
    rfl
  refine ⟨⟨tenths / 10, 2 ^ k⟩, ?_, hunit.symm, tenths, ?_, rfl⟩
  · refine quantity?_of_parts (by simp [htext, Json.natChars]) ?_ hspace (decimal?_tenths tenths)
      hname
    have hdigits (n : ℕ) : ' ' ∉ Json.natChars n := Numeral.notMem_natChars (by decide)
    simp [hdigits]
  · have hnearest := Double.isNearest_roundDiv (10 * d.ratio.1) d.ratio_snd_pos
    rw [← ht] at hnearest
    rw [hunit]
    push_cast at hnearest ⊢
    rwa [← hvalue, Double.value_eq_ratio, ← mul_div_assoc]

/-- **Every size with a limit is read as what it shows.** -/
theorem exists_shows (h : n < unlimited) : ∃ q, quantity? (size n) = some q ∧ Shows n q := by
  have hword : n ≤ 2 ^ 64 := h.le.trans (Nat.sub_le _ 1)
  rw [size, if_neg h.ne]
  simp only [Nat.pow_eq]
  split
  · rename_i hlow
    exact exists_shows_inUnit "GiB" 30 (by norm_num) hlow hword (by rw [unitOf, if_pos hlow]) rfl
      (by decide)
  split
  · rename_i hhigh hlow
    exact exists_shows_inUnit "MiB" 20 (by norm_num) hlow hword
      (by rw [unitOf, if_neg hhigh, if_pos hlow]) rfl (by decide)
  split
  · rename_i hhigher hhigh hlow
    exact exists_shows_inUnit "KiB" 10 (by norm_num) hlow hword
      (by rw [unitOf, if_neg hhigher, if_neg hhigh, if_pos hlow]) rfl (by decide)
  · -- Bytes are not rounded; ten times their number is the nearest number of tenths.
    rename_i hhighest hhigher hhigh
    have hunit : unitOf n = 1 := by rw [unitOf, if_neg hhighest, if_neg hhigher, if_neg hhigh]
    have hsmall : n < 2 ^ 53 := by omega
    refine ⟨⟨n, 1⟩, ?_, hunit.symm, 10 * n, ?_, ?_⟩
    · refine quantity?_of_parts (by simp [Json.natChars]; rfl) (Numeral.notMem_natChars (by decide))
        (by decide) (decimal?_natChars n) rfl
    · rw [hunit, Double.value_ofNat hsmall]
      have hexact : (10 : ℚ) * (n / (1 : ℕ)) = (10 * n : ℕ) := by
        push_cast
        rw [div_one]
      rw [hexact]
      exact Double.isNearest_natCast _
    · push_cast
      field_simp

/-! ### The order of sizes -/

variable {a b : ℕ} {p q : Quantity}

theorem exists_unitOf (n : ℕ) : ∃ k ≤ 30, unitOf n = 2 ^ k ∧ (0 < n → 2 ^ k ≤ n) := by
  rw [unitOf]
  split_ifs
  · exact ⟨30, by omega⟩
  · exact ⟨20, by omega⟩
  · exact ⟨10, by omega⟩
  · exact ⟨0, by omega⟩

theorem unitOf_pos (n : ℕ) : (0 : ℚ) < unitOf n := by
  obtain ⟨k, -, hunit, -⟩ := exists_unitOf n
  rw [hunit]
  positivity

/-- Below the largest unit, a size does not reach the next one. -/
theorem exists_unitOf_lt (h : n < 2 ^ 30) : ∃ k ≤ 20, unitOf n = 2 ^ k ∧ n < 2 ^ (k + 10) := by
  rw [unitOf]
  split_ifs
  · omega
  · exact ⟨20, by omega⟩
  · exact ⟨10, by omega⟩
  · exact ⟨0, by omega⟩

/-- A larger size has the same unit, or one that is 1024 times as large at least. -/
theorem unitOf_eq_or_le (h : a ≤ b) :
    unitOf a = unitOf b ∨ a < 2 ^ 30 ∧ 1024 * unitOf a ≤ unitOf b := by
  rw [unitOf, unitOf]
  split_ifs <;> omega

/-- One of its unit is shown of a size at least. -/
theorem Shows.one_le_number (h : Shows n q) (hpos : 0 < n) (hword : n ≤ 2 ^ 64) :
    1 ≤ q.number := by
  obtain ⟨tenths, ht, hnumber⟩ := h.number
  obtain ⟨k, hk, hunit, hlow⟩ := exists_unitOf n
  have hvalue : (1 : ℚ) ≤ (Double.ofNat n).value / unitOf n := by
    rw [one_le_div (unitOf_pos n), hunit]
    push_cast
    exact Double.two_pow_le_value (by omega) (hlow hpos) hword
  have hten : 10 ≤ tenths := (Double.isNearest_natCast 10).le ht (by
    push_cast
    linarith)
  rw [hnumber, le_div_iff₀ (by norm_num)]
  exact_mod_cast hten

/-- Below the largest unit, 1024 of its unit are shown of a size at most. -/
theorem Shows.number_le (h : Shows n q) (hsmall : n < 2 ^ 30) : q.number ≤ 1024 := by
  obtain ⟨tenths, ht, hnumber⟩ := h.number
  obtain ⟨k, hk, hunit, hhigh⟩ := exists_unitOf_lt hsmall
  have hvalue : (Double.ofNat n).value / unitOf n ≤ 1024 := by
    rw [div_le_iff₀ (unitOf_pos n), hunit]
    calc (Double.ofNat n).value ≤ 2 ^ (k + 10) := Double.value_le_two_pow (by omega) hhigh.le
      _ = 1024 * (2 ^ k : ℕ) := by
        push_cast
        ring
  have hmost : tenths ≤ 10240 := ht.le (Double.isNearest_natCast 10240) (by
    push_cast
    linarith)
  rw [hnumber, div_le_iff₀ (by norm_num)]
  exact_mod_cast hmost

/-- **A larger size is not shown as less**, whatever the units. -/
theorem Shows.bytes_le (ha : Shows a p) (hb : Shows b q) (h : a ≤ b) (hword : b ≤ 2 ^ 64) :
    p.bytes ≤ q.bytes := by
  rw [Quantity.bytes, Quantity.bytes, ha.unit, hb.unit]
  rcases unitOf_eq_or_le h with hunit | ⟨hsmall, hunit⟩
  · obtain ⟨s, hs, hp⟩ := ha.number
    obtain ⟨t, ht, hq⟩ := hb.number
    have hle : s ≤ t := hs.le ht (by
      rw [hunit]
      have := Double.value_ofNat_mono h hword
      have := unitOf_pos b
      gcongr)
    rw [hunit, hp, hq]
    gcongr
  · have hpos : 0 < b := by
      by_contra hzero
      obtain ⟨rfl, rfl⟩ : a = 0 ∧ b = 0 := by omega
      norm_num [unitOf] at hunit
    calc p.number * unitOf a ≤ 1024 * unitOf a := by
          gcongr
          exact ha.number_le hsmall
      _ ≤ unitOf b := by exact_mod_cast hunit
      _ ≤ q.number * unitOf b :=
          le_mul_of_one_le_left (unitOf_pos b).le (hb.one_le_number hpos hword)

/-! ### Rounding to tenths -/

/-- **Half a tenth of the unit** is the error, for sizes that are exact as doubles. -/
theorem Shows.abs_sub_le (h : Shows n q) (hn : n < 2 ^ 53) : |q.bytes - n| ≤ q.unit / 20 := by
  obtain ⟨tenths, ht, hnumber⟩ := h.number
  have hpos := unitOf_pos n
  rw [Double.value_ofNat hn] at ht
  have herror : q.bytes - n = -(10 * (n / unitOf n) - tenths) * (unitOf n / 10) := by
    rw [Quantity.bytes, h.unit, hnumber]
    field_simp
    ring
  rw [herror, abs_mul, abs_neg, abs_of_pos (show (0 : ℚ) < unitOf n / 10 by positivity), h.unit]
  calc |10 * ((n : ℚ) / unitOf n) - tenths| * (unitOf n / 10) ≤ 1 / 2 * (unitOf n / 10) := by
        gcongr
        exact ht.abs_sub_le
    _ = unitOf n / 20 := by ring

/-- Less than 1024 is shown just below the last half of a tenth. -/
theorem Shows.number_lt_iff (h : Shows n q) (hn : n < 2 ^ 53) :
    q.number < 1024 ↔ 20 * n < 20479 * unitOf n := by
  obtain ⟨tenths, ht, hnumber⟩ := h.number
  have hpos := unitOf_pos n
  rw [Double.value_ofNat hn] at ht
  have htenths : q.number < 1024 ↔ tenths < 10240 := by
    rw [hnumber, div_lt_iff₀ (by norm_num)]
    norm_num
  have hhalf : 20 * n < 20479 * unitOf n ↔ 10 * ((n : ℚ) / unitOf n) < 10240 - 1 / 2 := by
    rw [← mul_div_assoc, div_lt_iff₀ hpos, ← Nat.cast_lt (α := ℚ)]
    push_cast
    constructor <;> intro h <;> linarith
  rw [htenths, hhalf]
  constructor
  · intro hlt
    by_contra hge
    -- Half-way, the even neighbour is the one above.
    have htie : Double.IsNearest 10240 (10240 - 1 / 2) := .inr ⟨by norm_num, by decide⟩
    exact absurd (htie.le ht (not_lt.mp hge)) (by omega)
  · intro hlt
    have herror := (abs_le.mp ht.abs_sub_le).1
    have : (tenths : ℚ) < 10240 := by linarith
    exact_mod_cast this

/-! ### Sizes -/

/-- One size alone has no limit. -/
theorem size_eq_unlimited_iff (h : n ≤ unlimited) : size n = "unlimited" ↔ n = unlimited := by
  constructor
  · intro htext
    by_contra hne
    obtain ⟨q, hq, -⟩ := exists_shows (Nat.lt_of_le_of_ne h hne)
    have hread : quantity? "unlimited" = none := rfl
    rw [htext, hread] at hq
    cases hq
  · rintro rfl
    rfl

/-- **Sizes are shown faithfully.** A size below the one without limit is read as a number of a
unit. The larger of two sizes is not read as less, the two roundings and the changes of the unit
included. A size below `2 ^ 53` is read with an error of half a tenth of the unit at most. And of all
words just one is shown as unlimited. -/
theorem sizes_in_order :
    (∀ a b, a ≤ b → b < unlimited → ∃ p q, quantity? (size a) = some p ∧
        quantity? (size b) = some q ∧ p.bytes ≤ q.bytes) ∧
      (∀ n < 2 ^ 53, ∃ q, quantity? (size n) = some q ∧ |q.bytes - n| ≤ q.unit / 20) ∧
      ∀ n < 2 ^ 64, size n = "unlimited" ↔ n = unlimited := by
  have hunlimited : unlimited = 2 ^ 64 - 1 := rfl
  refine ⟨fun a b h hb => ?_, fun n hn => ?_, fun n hn => size_eq_unlimited_iff (by omega)⟩
  · obtain ⟨p, hp, ha⟩ := exists_shows (h.trans_lt hb)
    obtain ⟨q, hq, hb'⟩ := exists_shows hb
    exact ⟨p, q, hp, hq, ha.bytes_le hb' h (by omega)⟩
  · obtain ⟨q, hq, hshows⟩ := exists_shows (n := n) (by omega)
    exact ⟨q, hq, hshows.abs_sub_le hn⟩

/-- **What is shown below the largest unit.** A size from 1024 on is shown in the largest unit that
it reaches, with a number from 1 to 1024, both included. The number is 1024 for the sizes from
1023.95 of the unit on, although they do not reach the next one, and less for all others. -/
theorem size_within_unit (hlow : 2 ^ 10 ≤ n) (hhigh : n < 2 ^ 30) :
    ∃ q, quantity? (size n) = some q ∧ (q.unit = 2 ^ 10 ∨ q.unit = 2 ^ 20) ∧
      q.unit ≤ n ∧ n < 1024 * q.unit ∧ 1 ≤ q.number ∧ q.number ≤ 1024 ∧
      (q.number < 1024 ↔ 20 * n < 20479 * q.unit) := by
  have hunlimited : unlimited = 2 ^ 64 - 1 := rfl
  obtain ⟨q, hq, hshows⟩ := exists_shows (n := n) (by omega)
  have hunit : (unitOf n = 2 ^ 10 ∨ unitOf n = 2 ^ 20) ∧ unitOf n ≤ n ∧ n < 1024 * unitOf n := by
    rw [unitOf]
    split_ifs <;> omega
  have hnumber := hshows.number_lt_iff (by omega)
  rw [← hshows.unit] at hunit hnumber
  exact ⟨q, hq, hunit.1, hunit.2.1, hunit.2.2, hshows.one_le_number (by omega) (by omega),
    hshows.number_le hhigh, hnumber⟩

/-- The first size that is shown as 1024 of a unit, and the one before it. -/
theorem size_within_unit_last :
    (2 ^ 10 ≤ 1048524 ∧ 1048524 < 2 ^ 30 ∧
        ∃ q, quantity? (size 1048524) = some q ∧ q.number < 1024) ∧
      2 ^ 10 ≤ 1048525 ∧ 1048525 < 2 ^ 30 ∧
        ∃ q, quantity? (size 1048525) = some q ∧ q.number = 1024 := by
  refine ⟨⟨by norm_num, by norm_num, ?_⟩, by norm_num, by norm_num, ?_⟩
  · obtain ⟨q, hq, hunit, hle, hlt, -, -, hnumber⟩ :=
      size_within_unit (n := 1048524) (by norm_num) (by norm_num)
    exact ⟨q, hq, hnumber.mpr (by omega)⟩
  · obtain ⟨q, hq, hunit, hle, hlt, -, hmost, hnumber⟩ :=
      size_within_unit (n := 1048525) (by norm_num) (by norm_num)
    refine ⟨q, hq, le_antisymm hmost (not_lt.mp fun h => ?_)⟩
    have := hnumber.mp h
    omega

/-- **A size is shown as 1024 of a unit**, although it lies below the next one and there is one. -/
theorem size_rounded_up : 2 ^ 10 ≤ 1048575 ∧ 1048575 < 2 ^ 30 ∧
    size 1048575 = "1024.0 KiB" ∧ size (1048575 + 1) = "1.0 MiB" ∧
    ¬ ∃ q, quantity? (size 1048575) = some q ∧ 1 ≤ q.number ∧ q.number < 1024 := by
  have hread : quantity? (size 1048575) = some ⟨1024, 2 ^ 10⟩ := by decide +kernel
  refine ⟨by norm_num, by norm_num, by decide +kernel, by decide +kernel, ?_⟩
  rintro ⟨q, hq, -, hlt⟩
  obtain rfl := Option.some.inj (hread.symm.trans hq)
  exact lt_irrefl _ hlt

end Capsule.Report
