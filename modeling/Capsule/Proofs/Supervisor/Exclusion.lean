import Capsule.Proofs.Supervisor.Move

/-!
# One process for an id

Launches overlap, and each of them takes a long time between reserving its id and tracking its
task. Still an id is never in use twice: `Supervisor.one_process_per_id`.

The first half is the invariant `Orderly`, counted. The second half is a balance. For as long as an
id is not removed, every process that is started for it adds to what is tracked under it, and
nothing is taken away; as there is room for one there, one is all that can be started.

## Main results

* `Supervisor.occupancy_le_one`: launches that wait and tracked tasks of an id are at most one
* `Move.tracked_balance`, `Supervisor.tracked_balance`: what is started for an id is tracked
* `Supervisor.one_process_per_id`: both, and which launches are refused
-/

namespace Capsule

variable {now : Moment} {e : Event} {b b' : Books} {effects : Effects} {outcome : Outcome}

/-- **The balance of a move.** Unless a task is removed from an id, what is tracked under it grows
by the processes that are started for it. -/
theorem Move.tracked_balance (m : Move now e b b' effects outcome) (id : TaskId)
    (hkeep : ¬ (e = .remove id ∧ ∃ status, outcome = .removed status)) :
    (b'.tracked.get? id).toList.length =
      (b.tracked.get? id).toList.length + effects.started.countP (·.id = id) := by
  cases m with
  | idle _ hs _ => simp [hs]
  | touched _ hs _ => simp [hs]
  | @launched _ _ id' _ _ _ _ hfree hs =>
    rw [hs, TextMap.get?_insert]
    by_cases hid : id = id'
    · subst hid
      simp [hfree]
    · simp [hid, Ne.symm hid]
  | @removed _ id' _ t _ _ _ _ hs =>
    have hid : id ≠ id' := fun h => hkeep ⟨h ▸ rfl, t.status, rfl⟩
    rw [hs, TextMap.get?_erase, if_neg hid]
    rfl

namespace Supervisor

variable {s : Supervisor}

/-- The processes that were started. -/
def started (h : History) : List Started := h.flatMap fun r => r.output.1.started

/-- A step that removes the task of an id. -/
def Removes (id : TaskId) (r : Course.Step Supervisor Occurrence (Effects × Outcome)) : Prop :=
  r.input.event = .remove id ∧ ∃ status, r.output.2 = .removed status

theorem started_concat (h : History)
    (r : Course.Step Supervisor Occurrence (Effects × Outcome)) :
    started (h ++ [r]) = started h ++ r.output.1.started := by
  simp [started]

/-- **The balance of a course.** -/
theorem tracked_balance (ho : Orderly s.inFlight s) (id : TaskId) (os : List Occurrence)
    (hkeep : ∀ r ∈ Course.steps next s os, ¬ Removes id r) :
    ((Course.final next s os).tracked.get? id).toList.length =
      (s.tracked.get? id).toList.length +
        (started (Course.steps next s os)).countP (·.id = id) := by
  refine move_invariant ho (P := fun h b => (∀ r ∈ h, ¬ Removes id r) →
    (b.tracked.get? id).toList.length =
      (s.tracked.get? id).toList.length + (started h).countP (·.id = id)) (fun _ => rfl) ?_ os hkeep
  intro h t o m ih hk
  have hlast := m.tracked_balance id (hk ⟨t, o, (next t o).2⟩ (by simp))
  have hrest := ih fun r hr => hk r (List.mem_append_left _ hr)
  rw [started_concat, List.countP_append, ← Nat.add_assoc, ← hrest]
  exact hlast

theorem ids_inFlight (s : Supervisor) : s.inFlight.map (·.2) = s.launches.map (·.id) := by
  rw [inFlight, List.map_map]
  rfl

/-- **An id is in use at most once.** -/
theorem occupancy_le_one (ho : Orderly s.inFlight s) (id : TaskId) :
    s.launches.countP (·.id = id) + s.tracked.toList.countP (·.1 = id) ≤ 1 := by
  have hcount : s.launches.countP (·.id = id) = (s.launches.map (·.id)).count id := by
    rw [List.count, List.countP_map]
    rfl
  rw [TextMap.countP_toList, hcount]
  cases ht : s.tracked.get? id with
  | none => simpa using List.nodup_iff_count_le_one.mp (ids_inFlight s ▸ ho.ids_nodup) id
  | some position =>
    have hnot : id ∉ s.launches.map (·.id) := by
      rw [← ids_inFlight]
      intro h
      obtain ⟨f, hf, rfl⟩ := List.mem_map.mp h
      exact absurd (ht.symm.trans (ho.untracked f hf)) (by simp)
    simp [List.count_eq_zero.mpr hnot]

/-- An id is taken for as long as a launch of it waits or a task is tracked under it. -/
theorem isTaken_iff (ho : Orderly s.inFlight s) {id : TaskId} :
    s.isTaken id = true ↔
      (∃ l ∈ s.launches, l.id = id) ∨ (s.tracked.get? id).isSome = true := by
  rw [isTaken, Bool.or_eq_true, List.contains_eq_mem, decide_eq_true_iff, ho.reserved_iff,
    ids_inFlight, List.mem_map]

/-- A launch whose id is taken does nothing. -/
theorem start_of_isTaken (w : Surroundings) (now : Moment) {id : TaskId} (name : String)
    (config : Config) (hid : s.isTaken id = true) :
    s.step w now (.start id name config) = (s, {}, .failed (.process (.idInUse id))) := by
  show s.start w now id name config = _
  rw [start, if_pos hid]

theorem begun_advance (w : Surroundings) (now : Moment) (s : Supervisor) (ticket : Nat)
    (id : TaskId) (name : String) (a : Advance) :
    (advance w now s ticket id name a).1.begun = s.begun := by
  cases h : a.status with
  | failed error => simp only [advance, h, release]
  | waiting p => simp only [advance, h]
  | ready config arguments =>
    cases hw : w.launcher s.starts arguments with
    | error failure => simp only [advance, h, launch, hw, release]
    | ok process => simp only [advance, h, launch, hw, release]

/-- A launch whose id is not taken begins. -/
theorem begun_start (w : Surroundings) (now : Moment) {id : TaskId} (name : String)
    (config : Config) (hid : s.isTaken id = false) :
    (s.step w now (.start id name config)).1.begun = s.begun + 1 := by
  show (s.start w now id name config).1.begun = _
  rw [start, if_neg (by simp [hid])]
  exact begun_advance w now { s.reserve id with begun := s.begun + 1 } s.begun id name _

/-- **One process for an id.** Behind every course of launches that overlap, fail and are given up,
of tasks that go on and are removed: launches of an id that wait and tasks that are tracked under it
are at most one together; a launch whose id is among them is refused, changes nothing and does
nothing outside, and any other launch begins; and until the id is removed, at most one process is
started for it. -/
theorem one_process_per_id (os : List Occurrence) (id : TaskId) :
    let s := after os
    let inUse := (∃ l ∈ s.launches, l.id = id) ∨ (s.tracked.get? id).isSome = true
    s.launches.countP (·.id = id) + s.tracked.toList.countP (·.1 = id) ≤ 1 ∧
      (inUse → ∀ w now name config, s.step w now (.start id name config) =
        (s, {}, .failed (.process (.idInUse id)))) ∧
      (¬ inUse → ∀ w now name config,
        (s.step w now (.start id name config)).1.begun = s.begun + 1) ∧
      ∀ more, (∀ r ∈ Course.steps next s more, ¬ Removes id r) →
        (started (Course.steps next s more)).countP (·.id = id) ≤ 1 := by
  intro s inUse
  have ho : Orderly s.inFlight s := orderly_after os
  refine ⟨occupancy_le_one ho id, fun huse w now name config => ?_,
    fun huse w now name config => ?_, fun more hkeep => ?_⟩
  · exact start_of_isTaken w now name config ((isTaken_iff ho).mpr huse)
  · refine begun_start w now name config ?_
    rw [← Bool.not_eq_true, isTaken_iff ho]
    exact huse
  · have hbalance := tracked_balance ho id more hkeep
    have hroom : ((Course.final next s more).tracked.get? id).toList.length ≤ 1 := by
      cases (Course.final next s more).tracked.get? id <;> simp
    omega

end Supervisor

end Capsule
