/-!
# Maps with texts as keys

A map is the list of its entries in strictly increasing key order, and carries the proof of that
order, so two maps are equal exactly when they have the same entries. Keys are compared by code
point, which is also the order of their UTF-8 bytes.

Insertion replaces the value of a key that is present: the last of several entries with one key
wins. The invariant is proved of the list operation, `insertEntry`, and packaged once.
-/

namespace Capsule

/-- Inserts an entry into a list in increasing key order; an entry with the same key is
replaced. -/
def insertEntry {α : Type} (k : String) (v : α) : List (String × α) → List (String × α)
  | [] => [(k, v)]
  | (k', v') :: rest =>
    if k < k' then (k, v) :: (k', v') :: rest
    else if k = k' then (k, v) :: rest
    else (k', v') :: insertEntry k v rest

theorem mem_insertEntry {α : Type} {k : String} {v : α} {e : String × α} :
    ∀ {l : List (String × α)}, e ∈ insertEntry k v l → e = (k, v) ∨ e ∈ l
  | [], h => by simpa [insertEntry] using h
  | (k', v') :: rest, h => by
    simp only [insertEntry] at h
    split at h
    · simpa using h
    · split at h
      · rcases List.mem_cons.1 h with rfl | h
        · exact .inl rfl
        · exact .inr (List.mem_cons_of_mem _ h)
      · rcases List.mem_cons.1 h with rfl | h
        · exact .inr (List.mem_cons_self ..)
        · exact (mem_insertEntry h).imp id (List.mem_cons_of_mem _)

/-- Entries in strictly increasing key order. -/
def SortedEntries {α : Type} (l : List (String × α)) : Prop :=
  l.Pairwise fun a b => a.1 < b.1

theorem sortedEntries_nil {α : Type} : SortedEntries ([] : List (String × α)) := List.Pairwise.nil

theorem SortedEntries.insertEntry {α : Type} (k : String) (v : α) {l : List (String × α)}
    (h : SortedEntries l) : SortedEntries (Capsule.insertEntry k v l) := by
  induction l with
  | nil => exact List.pairwise_singleton ..
  | cons e rest ih =>
    obtain ⟨k', v'⟩ := e
    have hrest := (List.pairwise_cons.1 h)
    simp only [Capsule.insertEntry]
    split
    · rename_i hlt
      refine List.pairwise_cons.2 ⟨fun e he => ?_, h⟩
      rcases List.mem_cons.1 he with rfl | he
      · exact hlt
      · exact String.lt_trans hlt (hrest.1 e he)
    · rename_i hnlt
      split
      · rename_i heq
        subst heq
        exact List.pairwise_cons.2 ⟨hrest.1, hrest.2⟩
      · rename_i hne
        have hlt : k' < k := by
          rcases Classical.em (k' < k) with h' | h'
          · exact h'
          · exact absurd (String.le_antisymm (String.not_lt.1 h') (String.not_lt.1 hnlt)) hne
        refine List.pairwise_cons.2 ⟨fun e he => ?_, ih hrest.2⟩
        rcases mem_insertEntry he with rfl | he
        · exact hlt
        · exact hrest.1 e he

/-- A map from text to values, as its entries in key order. -/
structure TextMap (α : Type) where
  toList : List (String × α)
  sorted : SortedEntries toList := by exact sortedEntries_nil
deriving DecidableEq, Repr

/-- A map from text to text. -/
abbrev StringMap := TextMap String

namespace TextMap

variable {α : Type}

def empty : TextMap α := ⟨[], sortedEntries_nil⟩

instance : Inhabited (TextMap α) := ⟨empty⟩

instance : EmptyCollection (TextMap α) := ⟨empty⟩

/-- Adds an entry, replacing one with the same key. -/
def insert (m : TextMap α) (k : String) (v : α) : TextMap α :=
  ⟨insertEntry k v m.toList, m.sorted.insertEntry k v⟩

/-- Adds entries one after the other. -/
def insertAll (m : TextMap α) (entries : List (String × α)) : TextMap α :=
  entries.foldl (fun m e => m.insert e.1 e.2) m

/-- The map of a list of entries, the last of several with one key winning. -/
def ofList (entries : List (String × α)) : TextMap α :=
  empty.insertAll entries

/-- Several maps made into one, of which later ones win. -/
def merge (maps : List (TextMap α)) : TextMap α :=
  ofList (maps.flatMap (·.toList))

/-- The value of a key. -/
def get? (m : TextMap α) (k : String) : Option α :=
  (m.toList.find? fun e => e.1 == k).map (·.2)

/-- The value of the last entry with a key. -/
def lastOf? (k : String) (entries : List (String × α)) : Option α :=
  (entries.findRev? fun e => e.1 == k).map (·.2)

/-- The map without a key. -/
def erase (m : TextMap α) (k : String) : TextMap α :=
  ⟨m.toList.filter fun e => e.1 ≠ k, m.sorted.filter _⟩

@[simp] theorem toList_empty : (empty : TextMap α).toList = [] := rfl

@[simp] theorem toList_insert (m : TextMap α) (k : String) (v : α) :
    (m.insert k v).toList = insertEntry k v m.toList := rfl

@[simp] theorem get?_empty (k : String) : (empty : TextMap α).get? k = none := rfl

theorem find?_insertEntry (k : String) (v : α) (k' : String) (l : List (String × α)) :
    (insertEntry k v l).find? (fun e => e.1 == k') =
      if k' = k then some (k, v) else l.find? fun e => e.1 == k' := by
  induction l with
  | nil =>
    by_cases h : k' = k
    · simp [insertEntry, h]
    · simp [insertEntry, h, Ne.symm h]
  | cons e rest ih =>
    obtain ⟨k₀, v₀⟩ := e
    simp only [insertEntry]
    by_cases hlt : k < k₀
    · rw [if_pos hlt]
      by_cases h : k' = k
      · simp [h]
      · simp [h, Ne.symm h]
    · rw [if_neg hlt]
      by_cases heq : k = k₀
      · subst heq
        by_cases h : k' = k
        · simp [h]
        · simp [h, Ne.symm h]
      · rw [if_neg heq, List.find?_cons, List.find?_cons, ih]
        by_cases h : k' = k
        · subst h
          simp [beq_false_of_ne (Ne.symm heq)]
        · simp [h]

/-- **Look-up behind an insertion.** -/
theorem get?_insert (m : TextMap α) (k : String) (v : α) (k' : String) :
    (m.insert k v).get? k' = if k' = k then some v else m.get? k' := by
  rw [get?, toList_insert, find?_insertEntry]
  by_cases h : k' = k
  · simp [h]
  · simp [h, get?]

/-- **Look-up behind an erasure.** -/
theorem get?_erase (m : TextMap α) (k k' : String) :
    (m.erase k).get? k' = if k' = k then none else m.get? k' := by
  rw [get?, erase, List.find?_filter]
  by_cases h : k' = k
  · subst h
    simp
  · rw [if_neg h, get?]
    congr 2
    funext e
    by_cases he : e.1 = k'
    · simp [he, h]
    · simp [he]

/-- No key occurs again behind its entry. -/
theorem ne_of_sortedEntries_cons {e e' : String × α} {rest : List (String × α)}
    (h : SortedEntries (e :: rest)) (he' : e' ∈ rest) : e'.1 ≠ e.1 := fun heq =>
  String.lt_irrefl e.1 (heq ▸ (List.pairwise_cons.1 h).1 e' he')

/-- A key has at most one entry, so that look-up gives every entry. -/
theorem mem_toList_iff {m : TextMap α} {k : String} {v : α} :
    (k, v) ∈ m.toList ↔ m.get? k = some v := by
  obtain ⟨l, hl⟩ := m
  simp only [get?]
  induction l with
  | nil => simp
  | cons e rest ih =>
    rw [List.mem_cons, List.find?_cons, ih (List.pairwise_cons.1 hl).2]
    by_cases he : e.1 = k
    · subst he
      have hnone : rest.find? (fun e' => e'.1 == e.1) = none :=
        List.find?_eq_none.2 fun e' he' => by simpa using ne_of_sortedEntries_cons hl he'
      rw [hnone]
      simp [Prod.ext_iff, eq_comm]
    · have hne : (k, v) ≠ e := fun h => he (h ▸ rfl)
      simp [beq_false_of_ne he, hne]

/-- A key has one entry or none. -/
theorem countP_toList (m : TextMap α) (k : String) :
    m.toList.countP (fun e => e.1 = k) = (m.get? k).toList.length := by
  obtain ⟨l, hl⟩ := m
  simp only [get?]
  induction l with
  | nil => rfl
  | cons e rest ih =>
    rw [List.countP_cons, ih (List.pairwise_cons.1 hl).2, List.find?_cons]
    by_cases he : e.1 = k
    · subst he
      have hnone : rest.find? (fun e' => e'.1 == e.1) = none :=
        List.find?_eq_none.2 fun e' he' => by simpa using ne_of_sortedEntries_cons hl he'
      simp [hnone]
    · simp [he, beq_false_of_ne he]

@[ext] theorem ext {m n : TextMap α} (h : m.toList = n.toList) : m = n := by
  cases m; cases n; simp_all

/-- An entry whose key comes behind all others is added at the end. -/
theorem insertEntry_of_forall_lt {k : String} (v : α) {l : List (String × α)}
    (h : ∀ e ∈ l, e.1 < k) : insertEntry k v l = l ++ [(k, v)] := by
  induction l with
  | nil => rfl
  | cons e rest ih =>
    have he : e.1 < k := h e (List.mem_cons_self ..)
    have hne : k ≠ e.1 := fun heq => String.lt_irrefl k (heq ▸ he)
    rw [insertEntry, if_neg (String.lt_asymm he), if_neg hne,
      ih fun e' he' => h e' (List.mem_cons_of_mem _ he')]
    rfl

/-- Entries that ascend, and come behind those that are there, are added at the end. -/
theorem toList_insertAll {m : TextMap α} {entries : List (String × α)}
    (h : SortedEntries (m.toList ++ entries)) :
    (m.insertAll entries).toList = m.toList ++ entries := by
  induction entries generalizing m with
  | nil => exact (List.append_nil _).symm
  | cons e entries ih =>
    have hlt : ∀ e' ∈ m.toList, e'.1 < e.1 := fun e' he' =>
      (List.pairwise_append.mp h).2.2 e' he' e (List.mem_cons_self ..)
    have hinsert : (m.insert e.1 e.2).toList = m.toList ++ [e] := insertEntry_of_forall_lt e.2 hlt
    rw [List.append_cons, ← hinsert] at h ⊢
    exact ih h

/-- **A map is the map of its entries.** -/
theorem ofList_toList (m : TextMap α) : ofList m.toList = m :=
  ext (toList_insertAll m.sorted)

/-- **Maps are equal where every look-up is.** -/
theorem ext_get? {m n : TextMap α} (h : ∀ k, m.get? k = n.get? k) : m = n := by
  have hmem : ∀ e, e ∈ m.toList ↔ e ∈ n.toList := fun e => by
    rw [mem_toList_iff, mem_toList_iff, h]
  have hnodup : ∀ m : TextMap α, m.toList.Nodup := by
    intro m
    refine List.Pairwise.imp ?_ m.sorted
    rintro a _ hlt rfl
    exact String.lt_irrefl a.1 hlt
  refine ext (((List.perm_ext_iff_of_nodup (hnodup m) (hnodup n)).mpr hmem).eq_of_pairwise ?_
    m.sorted n.sorted)
  exact fun e e' _ _ hlt hlt' => absurd hlt' (String.lt_asymm hlt)

theorem lastOf?_cons (k : String) (e : String × α) (entries : List (String × α)) :
    lastOf? k (e :: entries) = (lastOf? k entries).or (if k = e.1 then some e.2 else none) := by
  rw [lastOf?, lastOf?, List.findRev?]
  cases entries.findRev? fun e => e.1 == k with
  | some e' => rfl
  | none =>
    by_cases h : e.1 = k
    · simp [h]
    · simp [h, Ne.symm h]

theorem lastOf?_eq_none_iff {k : String} {entries : List (String × α)} :
    lastOf? k entries = none ↔ ∀ e ∈ entries, e.1 ≠ k := by
  induction entries with
  | nil => simp [lastOf?]
  | cons e entries ih =>
    rw [lastOf?_cons, Option.or_eq_none_iff, ih, List.forall_mem_cons, and_comm, ne_comm]
    simp

theorem mem_of_lastOf? {k : String} {v : α} {entries : List (String × α)}
    (h : lastOf? k entries = some v) : (k, v) ∈ entries := by
  induction entries with
  | nil => cases h
  | cons e entries ih =>
    rw [lastOf?_cons, Option.or_eq_some_iff] at h
    rcases h with h | ⟨-, h⟩
    · exact List.mem_cons_of_mem _ (ih h)
    · obtain ⟨rfl, rfl⟩ : k = e.1 ∧ e.2 = v := by simpa using h
      exact List.mem_cons_self ..

theorem lastOf?_append (k : String) (entries entries' : List (String × α)) :
    lastOf? k (entries ++ entries') = (lastOf? k entries').or (lastOf? k entries) := by
  induction entries with
  | nil => exact (Option.or_none).symm
  | cons e entries ih => rw [List.cons_append, lastOf?_cons, lastOf?_cons, ih, Option.or_assoc]

/-- Only the entries of the key matter. -/
theorem lastOf?_filter (k : String) (entries : List (String × α)) :
    lastOf? k (entries.filter (·.1 == k)) = lastOf? k entries := by
  induction entries with
  | nil => rfl
  | cons e entries ih =>
    rw [List.filter_cons, lastOf?_cons]
    by_cases h : e.1 = k
    · simp [h, lastOf?_cons, ih]
    · simp [h, Ne.symm h, ih]

/-- What was there is found where no entry has its key. -/
theorem get?_insertAll (m : TextMap α) (entries : List (String × α)) (k : String) :
    (m.insertAll entries).get? k = (lastOf? k entries).or (m.get? k) := by
  induction entries generalizing m with
  | nil => rfl
  | cons e entries ih =>
    show ((m.insert e.1 e.2).insertAll entries).get? k = _
    rw [ih, get?_insert, lastOf?_cons, Option.or_assoc]
    split <;> rfl

/-- **The last entry of a key wins.** -/
theorem get?_ofList (entries : List (String × α)) (k : String) :
    (ofList entries).get? k = lastOf? k entries := by
  rw [ofList, get?_insertAll, get?_empty, Option.or_none]

/-- Lists of entries make the same map if for each key they end in the same value. -/
theorem ofList_eq_ofList_iff {entries entries' : List (String × α)} :
    ofList entries = ofList entries' ↔ ∀ k, lastOf? k entries = lastOf? k entries' := by
  constructor
  · intro h k
    rw [← get?_ofList, h, get?_ofList]
  · intro h
    exact ext_get? fun k => by rw [get?_ofList, get?_ofList, h]

/-- **Maps of lists of entries make the map of all these entries.** That each of them has lost the
entries that do not win in it does not matter. -/
theorem merge_map_ofList (groups : List (List (String × α))) :
    merge (groups.map ofList) = ofList groups.flatten := by
  refine ofList_eq_ofList_iff.mpr fun k => ?_
  induction groups with
  | nil => rfl
  | cons entries groups ih =>
    have hentries : lastOf? k (ofList entries).toList = lastOf? k entries := by
      rw [← get?_ofList, ofList_toList, get?_ofList]
    rw [List.map_cons, List.flatMap_cons, List.flatten_cons, lastOf?_append, lastOf?_append, ih,
      hentries]

end TextMap

end Capsule
