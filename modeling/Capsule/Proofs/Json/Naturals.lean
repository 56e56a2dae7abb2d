import Capsule.Command.Form
import Capsule.Json.Printer
import Capsule.Proofs.Json.Grammar

/-!
# Natural numbers in text

A natural number is printed in decimal digits, and what is printed is read as that number wherever
a word of sixty-four bits is wanted: in a document, and on a command line. The two readers share the
meaning of digits, `Numeral.decimal`, and differ in what may stand around them. For texts that are
read by nobody but people, `Numeral.ofDigits?` is that meaning with nothing around it.

## Main definitions

* `Numeral.ofDigits?`: the number that a text of digits means

## Main results

* `Numeral.decimal_natChars`: the digits of a number mean that number
* `Doc.reads_natChars`, `readWord?_natChars`: they are read as that number
-/

namespace Capsule

open Json

namespace Numeral

variable {n : Nat}

/-- The digits of a number mean that number. -/
theorem decimal_natChars (n : Nat) : decimal (natChars n) = n := by
  have hfold : Nat.ofDigitChars 10 (natChars n) 0 = decimal (natChars n) :=
    Nat.ofDigitChars_eq_foldl
  rw [← hfold, natChars, Nat.ofDigitChars_ten_toDigits]

theorem isDigit_natChars : ∀ c ∈ natChars n, c.isDigit = true := fun _ =>
  Nat.isDigit_of_mem_toDigits (by decide) (by decide)

theorem notMem_natChars {c : Char} (h : c.isDigit = false) : c ∉ natChars n := by
  intro hc
  rw [isDigit_natChars c hc] at h
  cases h

theorem isDigits_natChars (n : Nat) : IsDigits (natChars n) where
  nonempty := Nat.toDigits_ne_nil
  all := isDigit_natChars

/-- The number that a text means that consists of digits. -/
def ofDigits? (cs : List Char) : Option Nat :=
  if cs.isEmpty || !cs.all Char.isDigit then none else some (decimal cs)

/-- Zeros in front do not count. -/
theorem ofDigits?_zeros (k n : Nat) :
    ofDigits? (List.replicate k '0' ++ natChars n) = some n := by
  have hdecimal : decimal (List.replicate k '0' ++ natChars n) = n := by
    rw [decimal, List.foldl_append]
    have hzeros : (List.replicate k '0').foldl (fun n c => 10 * n + digitValue c) 0 = 0 := by
      induction k with
      | zero => rfl
      | succ k ih => exact ih
    rw [hzeros]
    exact decimal_natChars n
  have hall : (List.replicate k '0' ++ natChars n).all Char.isDigit = true := by
    rw [List.all_append, List.all_replicate, List.all_eq_true.mpr isDigit_natChars]
    simp
  have hempty : (List.replicate k '0' ++ natChars n).isEmpty = false := by
    simp [(isDigits_natChars n).nonempty]
  simp only [ofDigits?, hempty, hall, hdecimal]
  rfl

theorem ofDigits?_natChars (n : Nat) : ofDigits? (natChars n) = some n := ofDigits?_zeros 0 n

/-- No number but zero begins with a zero. -/
theorem natChars_of_head_zero (h : (natChars n).head? = some '0') : natChars n = ['0'] := by
  induction n using Nat.strongRecOn with
  | ind n ih =>
    rw [natChars, Nat.toDigits_eq_if (by decide)] at h ⊢
    split at h
    · rename_i hlt
      rw [if_pos hlt]
      exact congrArg ([·]) (Option.some.inj h)
    · rename_i hle
      rw [List.head?_append_of_ne_nil _ Nat.toDigits_ne_nil] at h
      have hzero : decimal (natChars (n / 10)) = 0 := by
        rw [ih (n / 10) (by omega) h]
        rfl
      rw [decimal_natChars] at hzero
      omega

/-- The digits of a number are a value of the grammar. -/
theorem isValue_natChars (n : Nat) : IsValue (natChars n) := by
  have hnumber := IsNumber.mk (.inl rfl) (isDigits_natChars n) natChars_of_head_zero .none .none
  rw [List.nil_append, List.nil_append, List.append_nil] at hnumber
  exact .number hnumber

/-- The digits of a number are cut off a text to the last. -/
theorem scan_natChars (n : Nat) {rest : List Char} (h : Doc.Ends rest) :
    scan (natChars n ++ rest) = .ok (⟨false, natChars n, [], none⟩, rest) := by
  have hdigits : digits (natChars n ++ rest) = .ok (natChars n, rest) :=
    Doc.digits_append (isDigits_natChars n) fun c hc => (h.head_ne hc).1
  have hzero : ¬ ((natChars n).head? = some '0' ∧ 1 < (natChars n).length) := by
    rintro ⟨hhead, hlength⟩
    rw [natChars_of_head_zero hhead] at hlength
    exact absurd hlength (by decide)
  have hrest : scanFraction ⟨false, natChars n, [], none⟩ rest =
      .ok (⟨false, natChars n, [], none⟩, rest) := by
    cases rest with
    | nil => rfl
    | cons c rest =>
      obtain ⟨-, hpoint, he, hE⟩ := h.head_ne rfl
      unfold scanFraction scanExponent
      simp [hpoint, he, hE]
  have hwhole : scanWhole false (natChars n ++ rest) =
      .ok (⟨false, natChars n, [], none⟩, rest) := by
    rw [scanWhole, hdigits]
    simp only [if_neg hzero]
    exact hrest
  rw [scan]
  · exact hwhole
  · intro more hmore
    obtain ⟨c, ds, hds⟩ := List.exists_cons_of_ne_nil (isDigits_natChars n).nonempty
    have hc := (isDigits_natChars n).all c (hds ▸ List.mem_cons_self ..)
    rw [hds] at hmore
    obtain ⟨rfl, -⟩ := List.cons.inj hmore
    exact absurd hc (by decide)

theorem value?_natChars (h : n < Nat.pow 2 64) :
    value? ⟨false, natChars n, [], none⟩ = some (.integer n) := by
  have hle : n ≤ wordMax := Nat.le_pred_of_lt h
  simp [value?, decimal_natChars, hle]

end Numeral

/-- **A word that is printed is read in a document.** -/
theorem Doc.reads_natChars {n : Nat} (h : n < Nat.pow 2 64) :
    Doc.Reads (natChars n) (.number (.ok (.integer n))) := by
  intro fuel rest _ hrest
  obtain ⟨c, ds, hds⟩ := List.exists_cons_of_ne_nil (Numeral.isDigits_natChars n).nonempty
  have hc := (Numeral.isDigits_natChars n).all c (hds ▸ List.mem_cons_self ..)
  have hvalue : value (fuel + 1) (natChars n ++ rest) = numberAt (natChars n ++ rest) := by
    rw [hds, List.cons_append]
    exact value_number (.inr hc) _
  rw [hvalue, numberAt_of_scan (Numeral.scan_natChars n hrest), ofNumeral,
    Numeral.value?_natChars h]

/-- **A word that is printed is read on a command line.** -/
theorem readWord?_natChars {n : Nat} (h : n < Nat.pow 2 64) :
    readWord? (String.ofList (natChars n)) = some n := by
  obtain ⟨c, ds, hds⟩ := List.exists_cons_of_ne_nil (Numeral.isDigits_natChars n).nonempty
  have hplus : ∀ cs, natChars n ≠ '+' :: cs := by
    intro cs hcs
    exact absurd (Numeral.isDigit_natChars '+' (hcs ▸ List.mem_cons_self ..)) (by decide)
  have hall : (natChars n).all Char.isDigit = true := List.all_eq_true.mpr Numeral.isDigit_natChars
  have hempty : (natChars n).isEmpty = false := by rw [hds]; rfl
  rw [readWord?, String.toList_ofList]
  split
  · exact absurd ‹_› (hplus _)
  · simp only [hempty, hall, Numeral.decimal_natChars]
    exact if_pos h

/-- What is read on a command line is a word. -/
theorem lt_of_readWord? {text : String} {n : Nat} (h : readWord? text = some n) :
    n < Nat.pow 2 64 := by
  simp only [readWord?, Option.ite_none_left_eq_some, Option.ite_none_right_eq_some,
    Option.some.injEq] at h
  obtain ⟨-, hlt, rfl⟩ := h
  exact hlt

end Capsule
