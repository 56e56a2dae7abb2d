import Capsule.Double
import Mathlib.Algebra.Order.Field.Power
import Mathlib.Data.Int.Log
import Mathlib.Data.Rat.Floor
import Mathlib.Tactic.FieldSimp
import Mathlib.Tactic.Linarith
import Mathlib.Tactic.Positivity
import Mathlib.Tactic.Ring

/-!
# Rounding to a double

`Double.magnitude` puts a ratio into bits, and this file says which number these bits stand for. It
is done in two steps that know nothing of each other. The first is about rationals alone: a number
is rounded to a multiple of a power of two, to the nearest one, and of two that are equally near to
the even one (`Double.IsRounded`). Everything that is used of rounding is proved of that relation:
it is monotone, and it leaves alone what a double can hold. The second step opens the bits once and
finds that relation there.

The power of two grows with the number that is rounded, and is the reason why monotonicity is not
that of rounding to integers. Between two powers the bound `2 ^ 53` for the one significand and
`2 ^ 52` for the other meet.

## Main definitions

* `Double.value`: the magnitude of a finite double
* `Double.IsNearest`: the integer nearest to a number, the even one of two
* `Double.IsRounded`: the number that a double holds in place of another

## Main results

* `Double.IsRounded.le`, `Double.IsRounded.eq_of_eq`
* `Double.isRounded_ofRatio`
-/

namespace Capsule.Double

/-- The magnitude of a finite double. -/
def value (d : Double) : ℚ := d.significand * 2 ^ d.exponent

/-! ### The nearest integer -/

/-- The integer nearest to a number; of two that are equally near, the even one. -/
def IsNearest (q : ℕ) (x : ℚ) : Prop := |x - q| < 1 / 2 ∨ |x - q| = 1 / 2 ∧ Even q

variable {q r : ℕ} {x y : ℚ}

theorem IsNearest.abs_sub_le (h : IsNearest q x) : |x - q| ≤ 1 / 2 :=
  h.elim le_of_lt fun h => le_of_eq h.1

/-- A larger number has no smaller integer nearest to it. Were it smaller, then by one, with both
numbers half-way between; and of these two integers one is odd. -/
theorem IsNearest.le (hq : IsNearest q x) (hr : IsNearest r y) (h : x ≤ y) : q ≤ r := by
  by_contra hlt
  have hstep : (r : ℚ) + 1 ≤ q := by exact_mod_cast Nat.lt_of_not_le hlt
  obtain ⟨hqx, -⟩ := abs_le.mp hq.abs_sub_le
  obtain ⟨-, hry⟩ := abs_le.mp hr.abs_sub_le
  have hx : x - q = -(1 / 2) := by linarith
  have hy : y - r = 1 / 2 := by linarith
  have hnext : q = r + 1 := by
    have : (q : ℚ) = (r + 1 : ℕ) := by push_cast; linarith
    exact_mod_cast this
  rcases hq with hq | ⟨-, hqeven⟩
  · rw [hx, abs_neg, abs_of_pos (by norm_num)] at hq
    exact lt_irrefl _ hq
  rcases hr with hr | ⟨-, hreven⟩
  · rw [hy, abs_of_pos (by norm_num)] at hr
    exact lt_irrefl _ hr
  · rw [hnext, Nat.even_add_one] at hqeven
    exact hqeven hreven

theorem isNearest_natCast (n : ℕ) : IsNearest n n := .inl (by norm_num)

theorem IsNearest.eq_of_natCast (h : IsNearest q (r : ℚ)) : q = r :=
  le_antisymm (h.le (isNearest_natCast r) le_rfl) ((isNearest_natCast r).le h le_rfl)

/-- A quotient is what its division with remainder says, and lies before the next integer. -/
theorem div_eq_add_mod_div (num : ℕ) {den : ℕ} (hden : 0 < den) :
    (num : ℚ) / den = (num / den : ℕ) + (num % den : ℕ) / den ∧
      ((num % den : ℕ) : ℚ) / den < 1 := by
  have hpos : (0 : ℚ) < den := by exact_mod_cast hden
  constructor
  · have hnum : (num : ℚ) = den * (num / den : ℕ) + (num % den : ℕ) := by
      exact_mod_cast (Nat.div_add_mod num den).symm
    rw [div_eq_iff hpos.ne', add_mul, div_mul_cancel₀ _ hpos.ne', mul_comm _ (den : ℚ), ← hnum]
  · rw [div_lt_one hpos]
    exact_mod_cast Nat.mod_lt num hden

/-- **Quotients are rounded to the nearest integer.** -/
theorem isNearest_roundDiv (num : ℕ) {den : ℕ} (hden : 0 < den) :
    IsNearest (roundDiv num den) (num / den) := by
  have hpos : (0 : ℚ) < den := by exact_mod_cast hden
  obtain ⟨hquotient, hlt⟩ := div_eq_add_mod_div num hden
  have hnonneg : (0 : ℚ) ≤ (num % den : ℕ) / den := by positivity
  have hlow : 2 * (num % den) < den ↔ ((num % den : ℕ) : ℚ) / den < 1 / 2 := by
    rw [div_lt_div_iff₀ hpos (by norm_num), ← Nat.cast_lt (α := ℚ)]
    push_cast
    rw [one_mul, mul_comm]
  have hhigh : den < 2 * (num % den) ↔ 1 / 2 < ((num % den : ℕ) : ℚ) / den := by
    rw [div_lt_div_iff₀ (by norm_num) hpos, ← Nat.cast_lt (α := ℚ)]
    push_cast
    rw [one_mul, mul_comm]
  simp only [roundDiv, hlow, hhigh]
  rw [hquotient]
  generalize ((num % den : ℕ) : ℚ) / den = rest at *
  generalize num / den = n at *
  have hbelow : (n : ℚ) + rest - n = rest := add_sub_cancel_left ..
  have habove : (n : ℚ) + rest - (n + 1 : ℕ) = rest - 1 := by
    push_cast
    ring
  split
  · rename_i hlow
    left
    rwa [hbelow, abs_of_nonneg hnonneg]
  split
  · rename_i hhigh
    left
    rw [habove, abs_lt]
    constructor <;> linarith
  · rename_i hlow hhigh
    obtain rfl : rest = 1 / 2 := le_antisymm (not_lt.mp hhigh) (not_lt.mp hlow)
    right
    split
    · rename_i heven
      exact ⟨by rw [hbelow, abs_of_nonneg hnonneg], Nat.even_iff.mpr heven⟩
    · rename_i hodd
      refine ⟨?_, Nat.even_add_one.mpr fun h => hodd (Nat.even_iff.mp h)⟩
      rw [habove]
      norm_num

/-! ### Rounding to a double -/

/-- The exponent of the last place that a double has for a number. -/
def place (x : ℚ) : ℤ := max leastExponent (Int.log 2 x - 52)

/-- The number that a double holds in place of another. -/
def IsRounded (x y : ℚ) : Prop :=
  ∃ q : ℕ, IsNearest q (x / 2 ^ place x) ∧ y = q * 2 ^ place x

variable {x' y' : ℚ}

theorem IsRounded.nonneg (h : IsRounded x y) : 0 ≤ y := by
  obtain ⟨q, -, rfl⟩ := h
  positivity

theorem IsRounded.eq_zero (h : IsRounded 0 y) : y = 0 := by
  obtain ⟨q, hq, rfl⟩ := h
  rw [zero_div, ← Nat.cast_zero] at hq
  rw [hq.eq_of_natCast, Nat.cast_zero, zero_mul]

/-- In its last place a number has fifty-three bits at most. -/
theorem div_place_lt (x : ℚ) : x / 2 ^ place x < 2 ^ 53 := by
  have hplace : Int.log 2 x + 1 ≤ 53 + place x := by
    have := le_max_right leastExponent (Int.log 2 x - 52)
    rw [place]
    omega
  rw [div_lt_iff₀ (by positivity), ← zpow_natCast, ← zpow_add₀ (by norm_num)]
  calc x < 2 ^ (Int.log 2 x + 1) := by
        exact_mod_cast Int.lt_zpow_succ_log_self (R := ℚ) (b := 2) (by norm_num) x
    _ ≤ 2 ^ (53 + place x) := zpow_le_zpow_right₀ (by norm_num) hplace

/-- It has all fifty-three, unless its last place is the least of all. -/
theorem le_div_place (hx : 0 < x) (h : leastExponent < place x) : 2 ^ 52 ≤ x / 2 ^ place x := by
  have hplace : 52 + place x = Int.log 2 x := by
    rw [place] at h ⊢
    rcases max_cases leastExponent (Int.log 2 x - 52) with ⟨hmax, -⟩ | ⟨hmax, -⟩ <;> omega
  rw [le_div_iff₀ (by positivity), ← zpow_natCast, ← zpow_add₀ (by norm_num)]
  calc (2 : ℚ) ^ ((52 : ℕ) + place x : ℤ) = 2 ^ Int.log 2 x := by rw [← hplace]; rfl
    _ ≤ x := by exact_mod_cast Int.zpow_log_le_self (R := ℚ) (b := 2) (by norm_num) hx

theorem place_mono (hx : 0 < x) (h : x ≤ y) : place x ≤ place y :=
  max_le_max_left _ (sub_le_sub_right (Int.log_mono_right hx h) 52)

/-- **Rounding is monotone.** In one place it is rounding to integers; from a place to a higher one,
the significand of the smaller number is at most what that of the larger number is at least. -/
theorem IsRounded.le (hx : IsRounded x x') (hy : IsRounded y y') (h0 : 0 ≤ x) (h : x ≤ y) :
    x' ≤ y' := by
  rcases h0.eq_or_lt with rfl | hpos
  · rw [hx.eq_zero]
    exact hy.nonneg
  obtain ⟨q, hq, rfl⟩ := hx
  obtain ⟨r, hr, rfl⟩ := hy
  rcases (place_mono hpos h).eq_or_lt with heq | hlt
  · rw [← heq] at hr ⊢
    have hle : q ≤ r := hq.le hr (by gcongr)
    gcongr
  · have hleast : leastExponent < place y := (le_max_left ..).trans_lt hlt
    have hqmax : q ≤ 2 ^ 53 := hq.le (isNearest_natCast _) (by
      push_cast
      exact (div_place_lt x).le)
    have hrmin : 2 ^ 52 ≤ r := (isNearest_natCast _).le hr (by
      push_cast
      exact le_div_place (hpos.trans_le h) hleast)
    calc (q : ℚ) * 2 ^ place x ≤ 2 ^ 53 * 2 ^ place x := by
          gcongr
          exact_mod_cast hqmax
      _ = 2 ^ 52 * 2 ^ (place x + 1) := by
          rw [zpow_add_one₀ (by norm_num)]
          ring
      _ ≤ 2 ^ 52 * 2 ^ place y := by
          gcongr
          · norm_num
          · exact hlt
      _ ≤ r * 2 ^ place y := by
          gcongr
          exact_mod_cast hrmin

/-- **What a double can hold is not changed.** -/
theorem IsRounded.eq_of_eq (h : IsRounded x y) {m : ℕ} {e : ℤ} (hm : m < 2 ^ 53)
    (he : leastExponent ≤ e) (hx : x = m * 2 ^ e) : y = x := by
  rcases Nat.eq_zero_or_pos m with rfl | hpos
  · rw [Nat.cast_zero, zero_mul] at hx
    subst hx
    exact h.eq_zero
  have hxpos : 0 < x := by
    rw [hx]
    positivity
  obtain ⟨q, hq, rfl⟩ := h
  -- The place is not above `e`, so that in it `x` is an integer.
  have hplace : place x ≤ e := by
    have hlog : Int.log 2 x < 53 + e := by
      rw [← Int.lt_zpow_iff_log_lt (by norm_num) hxpos, hx]
      push_cast
      rw [zpow_add₀ (by norm_num)]
      gcongr
      exact_mod_cast hm
    exact max_le he (by omega)
  have hint : x / 2 ^ place x = (m * 2 ^ (e - place x).toNat : ℕ) := by
    have hsplit : (2 : ℚ) ^ e = 2 ^ (e - place x).toNat * 2 ^ place x := by
      rw [← zpow_natCast, ← zpow_add₀ (by norm_num)]
      congr 1
      omega
    rw [div_eq_iff (by positivity), Nat.cast_mul, Nat.cast_pow, Nat.cast_ofNat, mul_assoc,
      ← hsplit, ← hx]
  rw [hint] at hq
  rw [hq.eq_of_natCast, ← hint, div_mul_cancel₀]
  positivity

/-! ### Bits -/

variable {d : Double} {num den : ℕ}

theorem two_zpow_eq_div (e : ℤ) : (2 : ℚ) ^ e = 2 ^ e.toNat / 2 ^ (-e).toNat := by
  rw [← zpow_natCast, ← zpow_natCast, ← zpow_sub₀ (by norm_num)]
  congr 1
  omega

theorem value_eq_ratio (d : Double) : d.value = (d.ratio.1 : ℚ) / d.ratio.2 := by
  rw [value, two_zpow_eq_div, ratio]
  push_cast [Nat.pow_eq]
  rw [mul_div_assoc]

theorem ratio_snd_pos (d : Double) : 0 < d.ratio.2 := Nat.two_pow_pos _

/-- What the bits below the sign stand for. A significand that has been rounded up to `2 ^ 53` is
carried into the exponent and stands for the same. -/
theorem value_of_low {e : ℤ} {m : ℕ} (he : leastExponent ≤ e) (hm : m ≤ 2 ^ 53)
    (hfull : leastExponent < e → 2 ^ 52 ≤ m)
    (hlow : d.low = (e - leastExponent).toNat * 2 ^ 52 + m) : d.value = m * 2 ^ e := by
  obtain ⟨k, rfl⟩ : ∃ k : ℕ, e = leastExponent + k := Int.le.dest he |>.imp fun _ => Eq.symm
  have hk : (leastExponent + k - leastExponent).toNat = k := by omega
  rw [hk] at hlow
  rw [value, significand, exponent, Nat.pow_eq]
  by_cases hsmall : m < 2 ^ 52
  · -- Below the least exponent there is none that is left out.
    obtain rfl : k = 0 := by
      by_contra hk
      exact absurd (hfull (by omega)) (by omega)
    have hlow : d.low = m := by omega
    rw [hlow, if_pos hsmall, if_pos hsmall]
    simp
  rw [if_neg (by omega), if_neg (by omega)]
  rcases Nat.lt_or_eq_of_le hm with hlt | rfl
  · have hmod : d.low % 2 ^ 52 = m - 2 ^ 52 := by omega
    have hdiv : d.low / 2 ^ 52 = k + 1 := by omega
    rw [hmod, hdiv, Nat.add_sub_cancel' (by omega)]
    congr 2
    push_cast
    ring
  · have hmod : d.low % 2 ^ 52 = 0 := by omega
    have hdiv : d.low / 2 ^ 52 = k + 2 := by omega
    have hexponent : ((k + 2 : ℕ) : ℤ) + leastExponent - 1 = leastExponent + k + 1 := by
      push_cast
      ring
    rw [hmod, hdiv, hexponent, zpow_add_one₀ (by norm_num)]
    push_cast
    ring

theorem low_ofRatio (negative : Bool) (num den : ℕ) :
    (ofRatio negative num den).low = magnitude num den := by
  have hmagnitude : magnitude num den ≤ infinityBits := by
    rw [magnitude]
    split
    · exact Nat.zero_le _
    · exact Nat.min_le_left ..
  rw [infinityBits] at hmagnitude
  rw [low, ofRatio, UInt64.toNat_ofNat', Nat.pow_eq]
  split <;> omega

theorem zpow_log2_bounds {n : ℕ} (hn : 0 < n) :
    (2 : ℚ) ^ (Nat.log2 n : ℤ) ≤ n ∧ (n : ℚ) < 2 ^ (Nat.log2 n + 1 : ℤ) := by
  constructor
  · rw [zpow_natCast]
    exact_mod_cast Nat.log2_self_le hn.ne'
  · rw [← Nat.cast_add_one, zpow_natCast]
    exact_mod_cast Nat.lt_log2_self

/-- The logarithms of two numbers differ by the logarithm of their ratio, or by one more. -/
theorem log_ratio_bounds (hnum : 0 < num) (hden : 0 < den) :
    (Nat.log2 num : ℤ) - Nat.log2 den - 1 ≤ Int.log 2 ((num : ℚ) / den) ∧
      Int.log 2 ((num : ℚ) / den) < (Nat.log2 num : ℤ) - Nat.log2 den + 1 := by
  have hpos : (0 : ℚ) < den := by exact_mod_cast hden
  have hratio : (0 : ℚ) < num / den := by positivity
  obtain ⟨hnumlow, hnumhigh⟩ := zpow_log2_bounds hnum
  obtain ⟨hdenlow, hdenhigh⟩ := zpow_log2_bounds hden
  generalize (Nat.log2 num : ℤ) = a at *
  generalize (Nat.log2 den : ℤ) = b at *
  constructor
  · rw [← Int.zpow_le_iff_le_log (by norm_num) hratio, Nat.cast_ofNat, le_div_iff₀ hpos]
    calc (2 : ℚ) ^ (a - b - 1) * den ≤ 2 ^ (a - b - 1) * 2 ^ (b + 1) := by gcongr
      _ = 2 ^ a := by
          rw [← zpow_add₀ (by norm_num)]
          congr 1
          ring
      _ ≤ num := hnumlow
  · rw [← Int.lt_zpow_iff_log_lt (by norm_num) hratio, Nat.cast_ofNat, div_lt_iff₀ hpos]
    calc (num : ℚ) < 2 ^ (a + 1) := hnumhigh
      _ = 2 ^ (a - b + 1) * 2 ^ b := by
          rw [← zpow_add₀ (by norm_num)]
          congr 1
          ring
      _ ≤ 2 ^ (a - b + 1) * den := by gcongr

/-- What is asked of two numbers, to find the place of their ratio, is whether the ratio lies below
a power of two. -/
theorem mul_lt_mul_iff_log_lt (hnum : 0 < num) (hden : 0 < den) (e : ℤ) :
    num * 2 ^ (-e).toNat < den * 2 ^ e.toNat * 2 ^ 52 ↔
      Int.log 2 ((num : ℚ) / den) < e + 52 := by
  have hpos : (0 : ℚ) < den := by exact_mod_cast hden
  have hsplit : (2 : ℚ) ^ (e + 52) = 2 ^ e.toNat * 2 ^ 52 / 2 ^ (-e).toNat := by
    rw [zpow_add₀ (by norm_num), two_zpow_eq_div, div_mul_eq_mul_div]
    norm_num
  rw [← Int.lt_zpow_iff_log_lt (by norm_num) (by positivity), Nat.cast_ofNat, hsplit,
    div_lt_iff₀ hpos, div_mul_eq_mul_div, lt_div_iff₀ (by positivity), ← Nat.cast_lt (α := ℚ)]
  push_cast
  ring_nf

/-- **The last place of two numbers is that of their ratio.** -/
theorem lastPlace_eq (hnum : 0 < num) (hden : 0 < den) :
    lastPlace num den = place ((num : ℚ) / den) := by
  have hlog := log_ratio_bounds hnum hden
  simp only [lastPlace, place, Nat.pow_eq, mul_lt_mul_iff_log_lt hnum hden]
  split <;> omega

theorem isNearest_significand (num : ℕ) (hden : 0 < den) (e : ℤ) :
    IsNearest (roundDiv (num * 2 ^ (-e).toNat) (den * 2 ^ e.toNat)) ((num : ℚ) / den / 2 ^ e) := by
  have hquotient := isNearest_roundDiv (num * 2 ^ (-e).toNat)
    (show 0 < den * 2 ^ e.toNat by positivity)
  have hratio : ((num * 2 ^ (-e).toNat : ℕ) : ℚ) / (den * 2 ^ e.toNat : ℕ) =
      (num : ℚ) / den / 2 ^ e := by
    push_cast
    rw [two_zpow_eq_div, div_div_eq_mul_div, div_mul_eq_mul_div, div_div]
  rwa [hratio] at hquotient

/-- **A ratio is rounded to a double**, unless it is past the largest. -/
theorem isRounded_ofRatio (negative : Bool) (hden : 0 < den)
    (h : place ((num : ℚ) / den) ≤ 970) :
    IsRounded ((num : ℚ) / den) (ofRatio negative num den).value := by
  have hlow := low_ofRatio negative num den
  rcases Nat.eq_zero_or_pos num with rfl | hnum
  · refine ⟨0, ?_, ?_⟩
    · rw [Nat.cast_zero, zero_div, zero_div]
      exact_mod_cast isNearest_natCast 0
    · rw [magnitude, if_pos rfl] at hlow
      simp [value, significand, hlow]
  have hratio : (0 : ℚ) < num / den := by positivity
  rw [magnitude, if_neg hnum.ne', lastPlace_eq hnum hden] at hlow
  simp only [Nat.pow_eq] at hlow
  have hnearest := isNearest_significand num hden (place ((num : ℚ) / den))
  generalize roundDiv _ _ = m at hlow hnearest
  refine ⟨m, hnearest, ?_⟩
  have hleast : leastExponent ≤ place ((num : ℚ) / den) := le_max_left ..
  have hmax : m ≤ 2 ^ 53 := hnearest.le (isNearest_natCast _) (by
    push_cast
    exact (div_place_lt _).le)
  have hmin (hlt : leastExponent < place ((num : ℚ) / den)) : 2 ^ 52 ≤ m :=
    (isNearest_natCast _).le hnearest (by
      push_cast
      exact le_div_place hratio hlt)
  refine value_of_low hleast hmax hmin (hlow.trans (Nat.min_eq_right ?_))
  rw [leastExponent] at hleast ⊢
  rw [infinityBits]
  omega

/-! ### Words and powers of two -/

variable {a b : Double} {k n : ℕ}

theorem value_nonneg (d : Double) : 0 ≤ d.value := by
  rw [value]
  positivity

theorem significand_lt (d : Double) : d.significand < 2 ^ 53 := by
  rw [significand, Nat.pow_eq]
  split <;> omega

/-- No number that is far from the largest double is past it. -/
theorem place_le_of_lt (hk : k ≤ 1023) (h : x < 2 ^ k) : place x ≤ 970 := by
  rw [place, leastExponent]
  rcases le_or_gt x 0 with hneg | hpos
  · rw [Int.log_of_right_le_zero 2 hneg]
    norm_num
  · have hlog : Int.log 2 x < k := (Int.lt_zpow_iff_log_lt (by norm_num) hpos).mp (by
      push_cast
      rwa [zpow_natCast])
    omega

theorem isRounded_ofNat (h : n ≤ 2 ^ 64) : IsRounded n (ofNat n).value := by
  have hratio : (n : ℚ) / (1 : ℕ) = n := by rw [Nat.cast_one, div_one]
  have hplace : place ((n : ℚ) / (1 : ℕ)) ≤ 970 := by
    refine place_le_of_lt (k := 65) (by norm_num) ?_
    rw [hratio]
    exact_mod_cast h.trans_lt (by norm_num)
  have hrounded := isRounded_ofRatio false Nat.one_pos hplace
  rwa [hratio] at hrounded

theorem value_ofNat_mono {m : ℕ} (h : m ≤ n) (hn : n ≤ 2 ^ 64) :
    (ofNat m).value ≤ (ofNat n).value :=
  (isRounded_ofNat (h.trans hn)).le (isRounded_ofNat hn) (Nat.cast_nonneg m)
    (by exact_mod_cast h)

/-- Below `2 ^ 53` natural numbers are exact. -/
theorem value_ofNat (h : n < 2 ^ 53) : (ofNat n).value = n :=
  (isRounded_ofNat (by omega)).eq_of_eq h (by decide : leastExponent ≤ 0) (by simp)

/-- Powers of two are exact everywhere. -/
theorem value_ofNat_two_pow (h : k ≤ 64) : (ofNat (2 ^ k)).value = 2 ^ k := by
  have hrounded := isRounded_ofNat (Nat.pow_le_pow_right (n := 2) (by norm_num) h)
  have hleast : leastExponent ≤ k := by
    rw [leastExponent]
    omega
  rw [hrounded.eq_of_eq (m := 1) (by norm_num) hleast (by simp)]
  push_cast
  rfl

theorem two_pow_le_value (hk : k ≤ 64) (h : 2 ^ k ≤ n) (hn : n ≤ 2 ^ 64) :
    2 ^ k ≤ (ofNat n).value :=
  value_ofNat_two_pow hk ▸ value_ofNat_mono h hn

theorem value_le_two_pow (hk : k ≤ 64) (h : n ≤ 2 ^ k) : (ofNat n).value ≤ 2 ^ k :=
  value_ofNat_two_pow hk ▸ value_ofNat_mono h (Nat.pow_le_pow_right (by norm_num) hk)

/-- **A quotient is rounded**, like the ratio of the numbers. -/
theorem isRounded_div (hb : 0 < b.value) (h : place (a.value / b.value) ≤ 970) :
    IsRounded (a.value / b.value) (a.div b).value := by
  have hsnd (d : Double) : (d.ratio.2 : ℚ) ≠ 0 := by exact_mod_cast d.ratio_snd_pos.ne'
  have hfst : (b.ratio.1 : ℚ) ≠ 0 := fun hzero => by
    rw [value_eq_ratio, hzero, zero_div] at hb
    exact lt_irrefl _ hb
  have hratio : ((a.ratio.1 * b.ratio.2 : ℕ) : ℚ) / (a.ratio.2 * b.ratio.1 : ℕ) =
      a.value / b.value := by
    have ha := hsnd a
    have hb := hsnd b
    rw [value_eq_ratio, value_eq_ratio]
    push_cast
    field_simp
  have hden : 0 < a.ratio.2 * b.ratio.1 :=
    Nat.mul_pos a.ratio_snd_pos (Nat.pos_of_ne_zero (by exact_mod_cast hfst))
  rw [← hratio] at h ⊢
  exact isRounded_ofRatio _ hden h

/-- Division by a power of two is exact, for numbers that are far from the least. -/
theorem value_div (hb : b.value = 2 ^ k) (hk : k ≤ 512) (hlow : 1 ≤ a.value)
    (hhigh : a.value ≤ 2 ^ 64) : (a.div b).value = a.value / 2 ^ k := by
  have hexponent : leastExponent ≤ a.exponent - k := by
    have hlt : (2 : ℚ) ^ (-53 : ℤ) < 2 ^ a.exponent := by
      have hsignificand : (a.significand : ℚ) < 2 ^ (53 : ℤ) := by
        exact_mod_cast a.significand_lt
      rw [zpow_neg, inv_lt_iff_one_lt_mul₀ (by positivity)]
      calc 1 ≤ (a.significand : ℚ) * 2 ^ a.exponent := hlow
        _ < 2 ^ (53 : ℤ) * 2 ^ a.exponent := by gcongr
        _ = 2 ^ a.exponent * 2 ^ (53 : ℤ) := mul_comm ..
    have := (zpow_lt_zpow_iff_right₀ (by norm_num : (1 : ℚ) < 2)).mp hlt
    rw [leastExponent]
    omega
  have hplace : place (a.value / b.value) ≤ 970 := by
    refine place_le_of_lt (k := 65) (by norm_num) ?_
    rw [hb]
    calc a.value / 2 ^ k ≤ a.value := div_le_self a.value_nonneg (one_le_pow₀ (by norm_num))
      _ < 2 ^ 65 := hhigh.trans_lt (by norm_num)
  have hrounded := isRounded_div (by rw [hb]; positivity) hplace
  rw [hb] at hrounded
  refine hrounded.eq_of_eq a.significand_lt hexponent ?_
  rw [value, zpow_sub₀ (by norm_num), zpow_natCast, mul_div_assoc]

end Capsule.Double
