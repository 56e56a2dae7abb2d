import Capsule.Proofs.Config.Rules

/-!
# The root to pivot to

The setting is documented as `new-root[:old-root]`, two absolute paths at most with a colon between
them. What is looked at when a configuration is checked is each part between colons by itself, and
nothing counts the parts. So the texts that pass are the lists of absolute paths joined by colons,
of any length, and the documented ones are just those of them that have at most one colon.

## Scope

A configuration is reported for the first rule that it breaks, so what passes this one rule can be
seen only where no other is broken. That is the one hypothesis below, and it does not speak of the
setting itself.

## Main definitions

* `Config.IsPivot`: the documented form
* `Config.IsPathList`: any number of absolute paths joined by colons

## Main results

* `Config.isPathList_iff`: what a list of paths is, said of the parts between colons
* `Config.isPivot_iff`: the documented form, said of the number of colons
* `Config.pivotRoot_accepted_iff`
-/

namespace Capsule

/-- The parts of a text between separators hold no separator. -/
theorem List.notMem_of_mem_splitOn {α : Type} [BEq α] [LawfulBEq α] {a : α} {xs part : List α}
    (h : part ∈ xs.splitOn a) : a ∉ part := by
  induction xs generalizing part with
  | nil =>
    rw [List.splitOn_nil, List.mem_singleton] at h
    simp [h]
  | cons x xs ih =>
    rw [List.splitOn_cons_eq_if_modifyHead] at h
    obtain ⟨first, others, hparts⟩ := List.exists_cons_of_ne_nil (List.splitOn_ne_nil a xs)
    rw [hparts] at h ih
    split at h
    · rcases List.mem_cons.mp h with rfl | h
      · exact List.not_mem_nil
      · exact ih h
    · rename_i hx
      rcases List.mem_cons.mp h with rfl | h
      · have hne : a ≠ x := fun heq => hx (by simp [heq])
        simpa [hne] using ih List.mem_cons_self
      · exact ih (List.mem_cons_of_mem _ h)

namespace Config

/-- An absolute path that can stand between colons. -/
def IsPart (path : List Char) : Prop := path.head? = some '/' ∧ ':' ∉ path

instance : DecidablePred IsPart := fun _ => inferInstanceAs (Decidable (_ ∧ _))

/-- The documented form, `new-root[:old-root]`, or nothing at all. -/
inductive IsPivot : List Char → Prop
  | unset : IsPivot []
  | newRoot {new : List Char} : IsPart new → IsPivot new
  | bothRoots {new old : List Char} : IsPart new → IsPart old → IsPivot (new ++ ':' :: old)

/-- Any number of absolute paths joined by colons. -/
def IsPathList (s : List Char) : Prop :=
  ∃ paths, paths ≠ [] ∧ (∀ path ∈ paths, IsPart path) ∧ s = [':'].intercalate paths

variable {s : List Char}

/-! ### Lists of paths -/

/-- A text is a list of paths just if each of its parts between colons is absolute. -/
theorem isPathList_iff : IsPathList s ↔ ∀ part ∈ s.splitOn ':', part.head? = some '/' := by
  constructor
  · rintro ⟨paths, hne, hpaths, rfl⟩ part hpart
    rw [List.splitOn_intercalate ':' (fun path h => (hpaths path h).2) hne] at hpart
    exact (hpaths part hpart).1
  · intro h
    refine ⟨s.splitOn ':', List.splitOn_ne_nil ':' s, fun part hpart => ?_,
      (List.intercalate_splitOn ':').symm⟩
    exact ⟨h part hpart, List.notMem_of_mem_splitOn hpart⟩

/-- The colons of a list of paths are those between them. -/
theorem count_intercalate {path : List Char} {paths : List (List Char)}
    (h : ∀ p ∈ path :: paths, ':' ∉ p) :
    ([':'].intercalate (path :: paths)).count ':' = paths.length := by
  induction paths generalizing path with
  | nil => simpa [List.intercalate, List.count_eq_zero] using h
  | cons next paths ih =>
    have hpath : path.count ':' = 0 := List.count_eq_zero.mpr (h path List.mem_cons_self)
    have hjoin : [':'].intercalate (path :: next :: paths) =
        path ++ ':' :: [':'].intercalate (next :: paths) := by
      simp [List.intercalate]
    rw [hjoin, List.count_append, hpath, List.count_cons_self,
      ih fun p hp => h p (List.mem_cons_of_mem _ hp), List.length_cons, Nat.zero_add]

/-- A documented text is a list of one or two paths, and has one colon at most. -/
theorem IsPivot.isPathList (h : IsPivot s) : s = [] ∨ IsPathList s ∧ s.count ':' ≤ 1 := by
  cases h with
  | unset => exact .inl rfl
  | newRoot hnew =>
    refine .inr ⟨⟨[s], List.cons_ne_nil s [], by simpa using hnew, by simp [List.intercalate]⟩, ?_⟩
    rw [List.count_eq_zero.mpr hnew.2]
    exact Nat.zero_le 1
  | @bothRoots new old hnew hold =>
    have hcount : (new ++ ':' :: old).count ':' = 1 := by
      simp [List.count_eq_zero.mpr hnew.2, List.count_eq_zero.mpr hold.2]
    exact .inr ⟨⟨[new, old], List.cons_ne_nil new [old], by simp [hnew, hold],
      by simp [List.intercalate]⟩, Nat.le_of_eq hcount⟩

/-- A list of paths with one colon at most is documented. -/
theorem IsPathList.isPivot (h : IsPathList s) (hcount : s.count ':' ≤ 1) : IsPivot s := by
  obtain ⟨paths, hne, hpaths, rfl⟩ := h
  obtain ⟨path, rest, rfl⟩ := List.exists_cons_of_ne_nil hne
  rw [count_intercalate fun p hp => (hpaths p hp).2] at hcount
  match rest, hcount with
  | [], _ =>
    rw [show [':'].intercalate [path] = path by simp [List.intercalate]]
    exact .newRoot (hpaths path (by simp))
  | [old], _ =>
    rw [show [':'].intercalate [path, old] = path ++ ':' :: old by simp [List.intercalate]]
    exact .bothRoots (hpaths path (by simp)) (hpaths old (by simp))

/-- **The documented form is that of one colon at most.** -/
theorem isPivot_iff : IsPivot s ↔ s = [] ∨ IsPathList s ∧ s.count ':' ≤ 1 := by
  refine ⟨IsPivot.isPathList, ?_⟩
  rintro (rfl | ⟨hlist, hcount⟩)
  · exact .unset
  · exact hlist.isPivot hcount

/-! ### The rule -/

variable {c : Config}

/-- The rule for the root to pivot to is kept by nothing at all, and by a list of paths. -/
theorem not_breaks_absolutePivotRoot_iff :
    ¬ c.Breaks .absolutePivotRoot ↔ c.pivotRoot = "" ∨ IsPathList c.pivotRoot.toList := by
  rw [isPathList_iff]
  by_cases h : c.pivotRoot = "" <;> simp [Breaks, h]

/-- Where no rule but one is broken, the verdict is that of the one. -/
theorem validate_of_others {r : Rule} (hr : r ∈ rules)
    (hothers : ∀ r' ∈ rules, r' ≠ r → ¬ c.Breaks r') :
    c.validate = if c.Breaks r then .error (.invalid (c.violationOf r)) else .ok () := by
  rw [validate, violation?_eq]
  cases hfirst : rules.find? fun r => decide (c.Breaks r) with
  | none =>
    have hkept : ¬ c.Breaks r := by simpa using List.find?_eq_none.mp hfirst r hr
    rw [if_neg hkept]
    rfl
  | some r' =>
    have hbroken : c.Breaks r' := by simpa using List.find?_some hfirst
    obtain rfl : r' = r := Decidable.byContradiction fun hne =>
      hothers r' (List.mem_of_find?_eq_some hfirst) hne hbroken
    rw [if_pos hbroken]
    rfl

/-- **What is accepted as the root to pivot to.** In a configuration that breaks no other rule, the
text may be left out, or it must be a list of absolute paths joined by colons; every other text is
reported, as it is. The documented texts are those of the accepted ones that have one colon at
most. -/
theorem pivotRoot_accepted_iff
    (hothers : ∀ r ∈ rules, r ≠ .absolutePivotRoot → ¬ c.Breaks r) :
    (c.validate = .ok () ↔ c.pivotRoot = "" ∨ IsPathList c.pivotRoot.toList) ∧
      (c.validate = .ok () ∨
        c.validate = .error (.invalid ⟨.absolutePivotRoot, c.pivotRoot⟩)) ∧
      (IsPivot c.pivotRoot.toList ↔
        c.validate = .ok () ∧ c.pivotRoot.toList.count ':' ≤ 1) := by
  have hvalidate := validate_of_others (r := .absolutePivotRoot) (by decide) hothers
  have hok : c.validate = .ok () ↔ c.pivotRoot = "" ∨ IsPathList c.pivotRoot.toList := by
    rw [hvalidate, ← not_breaks_absolutePivotRoot_iff]
    split <;> simp [*]
  refine ⟨hok, ?_, ?_⟩
  · rw [hvalidate]
    split
    · exact .inr rfl
    · exact .inl rfl
  · rw [hok, isPivot_iff, ← String.toList_eq_nil_iff, or_and_right]
    refine or_congr_left ⟨fun h => ⟨h, ?_⟩, And.left⟩
    rw [h]
    exact Nat.zero_le 1

/-- Two halves. -/
theorem pivotRoot_accepted_pair :
    let c : Config := { pivotRoot := "/sysroot:/oldroot" }
    (∀ r ∈ rules, r ≠ .absolutePivotRoot → ¬ c.Breaks r) ∧ c.validate = .ok () ∧
      IsPivot c.pivotRoot.toList := by
  have hothers : ∀ r ∈ rules, r ≠ .absolutePivotRoot →
      ¬ ({ pivotRoot := "/sysroot:/oldroot" } : Config).Breaks r := by decide
  obtain ⟨hok, -, hpivot⟩ := pivotRoot_accepted_iff hothers
  have hvalid := hok.mpr (.inr (isPathList_iff.mpr (by decide)))
  exact ⟨hothers, hvalid, hpivot.mpr ⟨hvalid, by decide⟩⟩

/-- **Three roots are accepted**, though two are documented at most. -/
theorem pivotRoot_accepts_three :
    let c : Config := { pivotRoot := "/a:/b:/c" }
    (∀ r ∈ rules, r ≠ .absolutePivotRoot → ¬ c.Breaks r) ∧ c.validate = .ok () ∧
      ¬ IsPivot c.pivotRoot.toList := by
  refine ⟨by decide, rfl, ?_⟩
  rw [isPivot_iff]
  rintro (h | ⟨-, h⟩) <;> exact absurd h (by decide)

end Config

end Capsule
