import Provision.Octets

/-! # Sinks

A sink takes octets. It may take only part of what it is offered, ask to be tried again at certain
offsets, and fail once at a certain offset.

* `Sink.write` — one attempt.
* `Sink.writeAll` — attempts until everything is taken or one fails.
-/

namespace Provision

/-- A sink and what it has taken. -/
structure Sink where
  received : Octets
  /-- The offset at which it fails, once. -/
  limit : Option Nat
  /-- The offsets at which it asks to be tried again, once each. -/
  interrupts : List Nat
  /-- The cause that it gives for its failure. -/
  cause : String

inductive Attempt where
  /-- So many octets were taken. -/
  | took (count : Nat)
  /-- Nothing was taken; try again. -/
  | interrupted
  /-- Nothing was taken. -/
  | failed (cause : String)
  deriving DecidableEq, Repr

namespace Sink

/-- A sink that takes everything. -/
def unlimited : Sink := ⟨[], none, [], ""⟩

def offset (s : Sink) : Nat := s.received.length

/-- The next offset at which the sink will not just take what it is offered. -/
def nextStop? (s : Sink) : Option Nat :=
  ((s.interrupts ++ s.limit.toList).filter fun offset => s.offset < offset).min?

/-- How many of so many octets are taken at the present offset. -/
def capacity (s : Sink) (offered : Nat) : Nat :=
  match s.nextStop? with
  | none => offered
  | some stop => min offered (stop - s.offset)

/-- One attempt to write. -/
def write (s : Sink) (octets : Octets) : Sink × Attempt :=
  if s.offset ∈ s.interrupts then
    ({ s with interrupts := s.interrupts.filter (· ≠ s.offset) }, .interrupted)
  else if s.limit = some s.offset then ({ s with limit := none }, .failed s.cause)
  else
    ({ s with received := s.received ++ octets.take (s.capacity octets.length) },
      .took (s.capacity octets.length))

theorem lt_of_nextStop {s : Sink} {stop : Nat} (h : s.nextStop? = some stop) :
    s.offset < stop := by
  have := List.min?_mem h
  simpa using (List.mem_filter.1 this).2

theorem capacity_pos (s : Sink) {offered : Nat} (h : 0 < offered) : 0 < s.capacity offered := by
  unfold capacity
  split
  · exact h
  · rename_i stop hstop
    have := lt_of_nextStop hstop
    omega

/-- An attempt that takes something keeps the offsets at which the sink interrupts. -/
theorem write_took {s s' : Sink} {octets : Octets} {count : Nat}
    (h : s.write octets = (s', .took count)) :
    count = s.capacity octets.length ∧ s'.interrupts = s.interrupts := by
  unfold write at h
  split at h
  · simp at h
  · split at h
    · simp at h
    · simp only [Prod.mk.injEq, Attempt.took.injEq] at h
      obtain ⟨rfl, rfl⟩ := h
      exact ⟨rfl, rfl⟩

/-- An attempt that is interrupted uses up an offset. -/
theorem write_interrupted {s s' : Sink} {octets : Octets}
    (h : s.write octets = (s', .interrupted)) : s'.interrupts.length < s.interrupts.length := by
  unfold write at h
  split at h
  · rename_i hmem
    simp only [Prod.mk.injEq, and_true] at h
    subst h
    exact List.length_filter_lt_length_iff_exists.2 ⟨_, hmem, by simp⟩
  · split at h <;> simp at h

/-- Attempts until all octets are taken, or the cause of the failure. -/
def writeAll (s : Sink) (octets : Octets) : Sink × Option String :=
  if _hne : octets = [] then (s, none)
  else match _h : s.write octets with
    | (s', .took count) => writeAll s' (octets.drop count)
    | (s', .interrupted) => writeAll s' octets
    | (s', .failed cause) => (s', some cause)
termination_by octets.length + s.interrupts.length
decreasing_by
  · obtain ⟨rfl, hinterrupts⟩ := write_took _h
    have := capacity_pos s (List.length_pos_iff.2 _hne)
    have := List.length_pos_iff.2 _hne
    simp only [List.length_drop, hinterrupts]
    omega
  · have := write_interrupted _h
    omega

end Sink

end Provision
