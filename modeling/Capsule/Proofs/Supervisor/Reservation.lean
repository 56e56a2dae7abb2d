import Capsule.Supervisor
import Capsule.Proofs.Course
import Mathlib.Data.List.Perm.Basic
import Mathlib.Data.List.Nodup

/-!
# Reservations

An id is guarded by two collections: it is reserved while a launch is under way, and tracked from
then on. This file proves that the two never overlap, and that what is reserved is just what the
launches that wait have reserved.

## Launches that are neither waiting nor over

Between two waits a launch is in the hands of a step: it has been taken from those that wait, and
its id is still reserved. So `Orderly` does not speak of the launches of the state but of a list of
launches under way, which the caller supplies. In the states between steps that list is
`Supervisor.inFlight`; within a step it has one more launch in front. Nothing in it depends on the
order of the list, so that taking a launch from the middle is a permutation.

## Main definitions

* `Occurrence`, `Supervisor.next`: an event with what it meets, and what it leads to
* `Supervisor.Orderly`: reserved ids, tracked ids and launches under way fit together

## Main results

* `Supervisor.orderly_next`: every step keeps a supervisor orderly
-/

namespace Capsule

/-- An event, the surroundings that it meets and the time. The surroundings of two events have
nothing to do with each other: files come and go, and so do programs. -/
structure Occurrence where
  surroundings : Surroundings
  now : Moment
  event : Event

namespace Supervisor

variable {s : Supervisor}

/-- What an occurrence leads to. -/
def next (s : Supervisor) (o : Occurrence) : Supervisor × (Effects × Outcome) :=
  s.step o.surroundings o.now o.event

/-- The steps that a supervisor has taken. -/
abbrev History := List (Course.Step Supervisor Occurrence (Effects × Outcome))

/-- A new supervisor behind a list of occurrences. -/
def after (os : List Occurrence) : Supervisor := Course.final next {} os

/-- The steps of a new supervisor. -/
def history (os : List Occurrence) : History := Course.steps next {} os

/-- The launches that wait: their tickets and their ids. -/
def inFlight (s : Supervisor) : List (Nat × TaskId) := s.launches.map fun l => (l.ticket, l.id)

/-- A supervisor with a list of launches under way. -/
structure Orderly (fs : List (Nat × TaskId)) (s : Supervisor) : Prop where
  tickets_nodup : (fs.map (·.1)).Nodup
  ids_nodup : (fs.map (·.2)).Nodup
  ticket_lt : ∀ f ∈ fs, f.1 < s.begun
  reserved_iff : ∀ id, id ∈ s.reserved ↔ id ∈ fs.map (·.2)
  untracked : ∀ f ∈ fs, s.tracked.get? f.2 = none

namespace Orderly

variable {fs : List (Nat × TaskId)} {ticket : Nat} {id : TaskId}

theorem perm {fs' : List (Nat × TaskId)} (hp : fs.Perm fs') (ho : Orderly fs s) :
    Orderly fs' s where
  tickets_nodup := (hp.map _).nodup_iff.mp ho.tickets_nodup
  ids_nodup := (hp.map _).nodup_iff.mp ho.ids_nodup
  ticket_lt f hf := ho.ticket_lt f (hp.mem_iff.mpr hf)
  reserved_iff id := (ho.reserved_iff id).trans (hp.map _).mem_iff
  untracked f hf := ho.untracked f (hp.mem_iff.mpr hf)

/-- Only the ids and the number of launches that have begun matter. -/
theorem congr {s' : Supervisor} (ho : Orderly fs s) (hb : s'.begun = s.begun)
    (hr : s'.reserved = s.reserved) (ht : s'.tracked = s.tracked) : Orderly fs s' where
  tickets_nodup := ho.tickets_nodup
  ids_nodup := ho.ids_nodup
  ticket_lt := hb ▸ ho.ticket_lt
  reserved_iff := hr ▸ ho.reserved_iff
  untracked := ht ▸ ho.untracked

/-- An id that is not taken belongs to no launch under way, and is not tracked. -/
theorem not_isTaken (ho : Orderly fs s) (hid : s.isTaken id = false) :
    id ∉ fs.map (·.2) ∧ s.tracked.get? id = none := by
  simp only [isTaken, Bool.or_eq_false_iff, List.contains_eq_mem, decide_eq_false_iff_not,
    Option.isSome_eq_false_iff, Option.isNone_iff_eq_none] at hid
  exact ⟨fun h => hid.1 ((ho.reserved_iff id).mpr h), hid.2⟩

/-- A launch begins under the next ticket. -/
theorem reserve (ho : Orderly fs s) (hid : s.isTaken id = false) :
    Orderly ((s.begun, id) :: fs) { s.reserve id with begun := s.begun + 1 } := by
  obtain ⟨hfresh, hfree⟩ := ho.not_isTaken hid
  have hticket : s.begun ∉ fs.map (·.1) := by
    intro h
    obtain ⟨f, hf, hb⟩ := List.mem_map.mp h
    exact absurd (ho.ticket_lt f hf) (by omega)
  refine ⟨?_, ?_, ?_, ?_, ?_⟩
  · exact List.nodup_cons.mpr ⟨hticket, ho.tickets_nodup⟩
  · exact List.nodup_cons.mpr ⟨hfresh, ho.ids_nodup⟩
  · intro f hf
    rcases List.mem_cons.mp hf with rfl | hf
    · exact Nat.lt_succ_self _
    · exact Nat.lt_succ_of_lt (ho.ticket_lt f hf)
  · intro i
    simp only [Supervisor.reserve, List.mem_cons, List.map_cons, ho.reserved_iff i]
  · intro f hf
    rcases List.mem_cons.mp hf with rfl | hf
    · exact hfree
    · exact ho.untracked f hf

/-- A launch under way ends, and gives its id back. -/
theorem release (ho : Orderly ((ticket, id) :: fs) s) : Orderly fs (s.release id) where
  tickets_nodup := (List.nodup_cons.mp ho.tickets_nodup).2
  ids_nodup := (List.nodup_cons.mp ho.ids_nodup).2
  ticket_lt f hf := ho.ticket_lt f (List.mem_cons_of_mem _ hf)
  reserved_iff i := by
    have hnot : id ∉ fs.map (·.2) := (List.nodup_cons.mp ho.ids_nodup).1
    have hi := ho.reserved_iff i
    simp only [List.map_cons, List.mem_cons] at hi
    simp only [Supervisor.release, List.mem_filter, hi, decide_eq_true_eq, ne_eq]
    constructor
    · rintro ⟨rfl | h, hne⟩
      · exact absurd rfl hne
      · exact h
    · intro h
      exact ⟨.inr h, fun he => hnot (he ▸ h)⟩
  untracked f hf := ho.untracked f (List.mem_cons_of_mem _ hf)

/-- The task of a launch under way is tracked under the id of the launch. -/
theorem track (ho : Orderly ((ticket, id) :: fs) s) (position : Nat) :
    Orderly fs ({ s with tracked := s.tracked.insert id position }.release id) where
  tickets_nodup := ho.release.tickets_nodup
  ids_nodup := ho.release.ids_nodup
  ticket_lt := ho.release.ticket_lt
  reserved_iff := ho.release.reserved_iff
  untracked f hf := by
    have hne : f.2 ≠ id := by
      intro he
      exact (List.nodup_cons.mp ho.ids_nodup).1 (he ▸ List.mem_map_of_mem (f := (·.2)) hf)
    show (s.tracked.insert id position).get? f.2 = none
    rw [TextMap.get?_insert, if_neg hne]
    exact ho.untracked f (List.mem_cons_of_mem _ hf)

/-- A tracked task is removed. -/
theorem untrack (ho : Orderly fs s) (id : TaskId) :
    Orderly fs { s with tracked := s.tracked.erase id } where
  tickets_nodup := ho.tickets_nodup
  ids_nodup := ho.ids_nodup
  ticket_lt := ho.ticket_lt
  reserved_iff := ho.reserved_iff
  untracked f hf := by
    show (s.tracked.erase id).get? f.2 = none
    rw [TextMap.get?_erase, ho.untracked f hf, ite_self]

end Orderly

/-! ### Launches that go on -/

/-- Tickets tell launches apart: taking the launch with a ticket out leaves all others. -/
theorem inFlight_perm_withdraw (hn : (s.inFlight.map (·.1)).Nodup) {ticket : Nat} {l : Launch}
    (hl : s.launch? ticket = some l) :
    s.inFlight.Perm ((ticket, l.id) :: (s.withdraw ticket).inFlight) := by
  obtain ⟨hticket, as, bs, hsplit, has⟩ := List.find?_eq_some_iff_append.mp hl
  rw [beq_iff_eq] at hticket
  subst hticket
  have has : ∀ a ∈ as, (a.ticket != l.ticket) = true := has
  have hbs : ∀ b ∈ bs, (b.ticket != l.ticket) = true := by
    intro b hb
    rw [inFlight, List.map_map, hsplit, List.map_append, List.map_cons] at hn
    have hnot := (List.nodup_cons.mp (List.nodup_append.mp hn).2.1).1
    simpa using fun he : b.ticket = l.ticket => hnot (List.mem_map.mpr ⟨b, hb, he⟩)
  have hfilter : (s.withdraw l.ticket).launches = as ++ bs := by
    show s.launches.filter (·.ticket != l.ticket) = as ++ bs
    rw [hsplit, List.filter_append, List.filter_cons_of_neg (by simp),
      List.filter_eq_self.mpr has, List.filter_eq_self.mpr hbs]
  rw [inFlight, inFlight, hfilter, hsplit, List.map_append, List.map_append]
  exact List.perm_middle

theorem Orderly.withdraw (ho : Orderly s.inFlight s) {ticket : Nat} {l : Launch}
    (hl : s.launch? ticket = some l) :
    Orderly ((ticket, l.id) :: (s.withdraw ticket).inFlight) (s.withdraw ticket) := by
  have h := ho.perm (inFlight_perm_withdraw ho.tickets_nodup hl)
  exact h.congr rfl rfl rfl

variable {ticket : Nat} {id : TaskId}

/-- A launch that has been prepared leads to a tracked task or fails; either way it is over. -/
theorem orderly_launch (w : Surroundings) (now : Moment) (name : String) (config : Config)
    (arguments : List String) (ho : Orderly ((ticket, id) :: s.inFlight) s) :
    let s' := (launch w now s id name config arguments).1.release id
    Orderly s'.inFlight s' := by
  intro s'
  cases h : w.launcher s.starts arguments with
  | error failure =>
    simp only [s', launch, h]
    exact ho.release.congr rfl rfl rfl
  | ok process =>
    simp only [s', launch, h]
    exact (ho.track s.tasks.length).congr rfl rfl rfl

theorem orderly_advance (w : Surroundings) (now : Moment) (name : String) (a : Advance)
    (ho : Orderly ((ticket, id) :: s.inFlight) s) :
    let s' := (advance w now s ticket id name a).1
    Orderly s'.inFlight s' := by
  intro s'
  cases h : a.status with
  | failed e =>
    simp only [s', advance, h]
    exact ho.release
  | waiting p =>
    have hp : ((ticket, id) :: s.inFlight).Perm s'.inFlight := by
      simp only [s', advance, h, inFlight, List.map_append, List.map_cons, List.map_nil]
      exact (List.perm_append_singleton _ _).symm
    refine (ho.perm hp).congr ?_ ?_ ?_ <;> simp only [s', advance, h]
  | ready config arguments =>
    simp only [s', advance, h]
    exact orderly_launch w now name config arguments ho

/-! ### Every step -/

theorem orderly_start (w : Surroundings) (now : Moment) (id : TaskId) (name : String)
    (config : Config) (ho : Orderly s.inFlight s) :
    Orderly (s.start w now id name config).1.inFlight (s.start w now id name config).1 := by
  rw [start]
  cases hid : s.isTaken id
  · exact orderly_advance w now name _ (ho.reserve hid)
  · exact ho

theorem orderly_resume (w : Surroundings) (now : Moment) (time ticket : Nat) (arrival : Arrival)
    (ho : Orderly s.inFlight s) :
    Orderly (s.resume w now time ticket arrival).1.inFlight
      (s.resume w now time ticket arrival).1 := by
  rw [resume]
  split
  · exact ho
  · rename_i l hl
    exact orderly_advance w now l.name _ (ho.withdraw hl)

theorem orderly_abandon (ticket : Nat) (ho : Orderly s.inFlight s) :
    Orderly (s.abandon ticket).inFlight (s.abandon ticket) := by
  rw [abandon]
  split
  · exact ho
  · rename_i l hl
    exact (ho.withdraw hl).release

theorem orderly_touch (now : Moment) (position : Nat) (e : Task.Event)
    (ho : Orderly s.inFlight s) :
    Orderly (s.touch now position e).1.inFlight (s.touch now position e).1 := by
  rw [touch]
  split
  · exact ho
  · exact ho.congr rfl rfl rfl

theorem orderly_remove (id : TaskId) (ho : Orderly s.inFlight s) :
    Orderly (s.remove id).1.inFlight (s.remove id).1 := by
  rw [remove]
  split
  · exact ho
  · split
    · exact ho
    · exact ho.untrack id

/-- **Every step keeps a supervisor orderly.** -/
theorem orderly_next (ho : Orderly s.inFlight s) (o : Occurrence) :
    Orderly (s.next o).1.inFlight (s.next o).1 := by
  obtain ⟨w, now, e⟩ := o
  cases e with
  | start id name config => exact orderly_start w now id name config ho
  | resume ticket time arrival => exact orderly_resume w now time ticket arrival ho
  | abandon ticket => exact orderly_abandon ticket ho
  | signal id signal reply =>
    show Orderly (s.signal now id signal reply).1.inFlight (s.signal now id signal reply).1
    rw [Supervisor.signal]
    split
    · exact ho
    · exact orderly_touch now _ _ ho
  | remove id => exact orderly_remove id ho
  | find id => exact ho
  | list => exact ho
  | task position e => exact orderly_touch now position e ho

theorem orderly_init : Orderly (inFlight {}) {} :=
  ⟨List.nodup_nil, List.nodup_nil, by simp [inFlight], by simp [inFlight], by simp [inFlight]⟩

theorem orderly_after (os : List Occurrence) : Orderly (after os).inFlight (after os) :=
  Course.final_invariant next (P := fun s => Orderly s.inFlight s) orderly_init
    (fun _ o ho => orderly_next ho o) os

end Supervisor

end Capsule
