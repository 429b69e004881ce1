import Provision.Output.Sink

/-! # Sinks that fail

A sink that fails once at an offset, and that asks to be tried again wherever it likes, holds what it was offered
up to that offset.

* `write_outcome` — what one attempt leaves behind.
* `writeAll_of_fits`, `writeAll_of_exceeds` — all attempts together, below the offset and across it.
-/

namespace Provision.Sink

/-- An attempt takes no more than there is room for, fails only where the room ends, or changes nothing but the
    interrupts that are left. -/
theorem write_outcome {s s' : Sink} {octets : Octets} {attempt : Attempt}
    (h : s.write octets = (s', attempt)) : match attempt with
      | .took count => s' = { s with received := s.received ++ octets.take count } ∧
          count ≤ octets.length ∧
          ∀ limit, s.limit = some limit → s.offset ≤ limit → s.offset + count ≤ limit
      | .interrupted => ∃ interrupts ⊆ s.interrupts, s' = { s with interrupts }
      | .failed cause => s.limit = some s.offset ∧ s' = { s with limit := none } ∧ cause = s.cause := by
  unfold write at h
  split at h
  · cases h
    exact ⟨_, List.filter_sublist.subset, rfl⟩
  split at h
  · rename_i hlimit
    cases h
    exact ⟨hlimit, rfl, rfl⟩
  · rename_i hne
    cases h
    refine ⟨rfl, ?_, fun limit hlimit hle => ?_⟩
    · unfold capacity
      split <;> omega
    · -- The limit is ahead, so it is among the stops, and the sink takes nothing beyond the nearest of them.
      have hahead : s.offset < limit := by
        refine Nat.lt_of_le_of_ne hle fun e => hne (by rw [hlimit, e])
      have hmem : limit ∈ (s.interrupts ++ s.limit.toList).filter fun offset => s.offset < offset := by
        simp [hlimit, hahead]
      unfold capacity nextStop?
      split
      · rename_i hnone
        rw [List.min?_eq_none_iff.1 hnone] at hmem
        cases hmem
      · rename_i stop hstop
        have hstop_le : stop ≤ limit := (List.min?_eq_some_iff.1 hstop).2 limit hmem
        omega

theorem writeAll_of_fits {s : Sink} {octets : Octets}
    (h : ∀ limit, s.limit = some limit → s.offset + octets.length ≤ limit) :
    ∃ interrupts ⊆ s.interrupts, s.writeAll octets =
      ({ s with received := s.received ++ octets, interrupts }, none) := by
  fun_induction writeAll s octets with
  | case1 s => exact ⟨s.interrupts, List.Subset.refl _, by simp⟩
  | case2 s octets hne s' count hwrite ih =>
    obtain ⟨rfl, hcount, -⟩ := write_outcome hwrite
    simp only [offset, List.length_append, List.length_take, List.length_drop] at ih h
    obtain ⟨interrupts, hinterrupts, heq⟩ := ih fun limit hlimit => by have := h limit hlimit; omega
    exact ⟨interrupts, hinterrupts, by rw [heq, List.append_assoc, List.take_append_drop]⟩
  | case3 s octets hne s' hwrite ih =>
    obtain ⟨_, hfewer, rfl⟩ := write_outcome hwrite
    obtain ⟨interrupts, hinterrupts, heq⟩ := ih h
    exact ⟨interrupts, List.Subset.trans hinterrupts hfewer, heq⟩
  | case4 s octets hne s' cause hwrite =>
    -- A sink that fails has no room left, and there is something to write.
    obtain ⟨hlimit, -, -⟩ := write_outcome hwrite
    have := h _ hlimit
    have := List.length_pos_iff.2 hne
    omega

theorem writeAll_of_exceeds {s : Sink} {octets : Octets} {limit : Nat} (hlimit : s.limit = some limit)
    (hle : s.offset ≤ limit) (hlt : limit < s.offset + octets.length) :
    ∃ interrupts, s.writeAll octets =
      ({ s with received := s.received ++ octets.take (limit - s.offset), limit := none, interrupts },
        some s.cause) := by
  fun_induction writeAll s octets with
  | case1 s => simp only [List.length_nil] at hlt; omega
  | case2 s octets hne s' count hwrite ih =>
    obtain ⟨rfl, hcount, hroom⟩ := write_outcome hwrite
    have hfits := hroom limit hlimit hle
    have hoffset : s.received.length = s.offset := rfl
    simp only [offset, List.length_append, List.length_take, List.length_drop] at ih hle hlt hfits
    obtain ⟨interrupts, heq⟩ := ih hlimit (by omega) (by omega)
    refine ⟨interrupts, ?_⟩
    rw [heq, List.append_assoc, Nat.min_eq_left hcount, ← hoffset,
      show limit - s.received.length = count + (limit - (s.received.length + count)) by omega,
      List.take_add]
  | case3 s octets hne s' hwrite ih =>
    obtain ⟨_, -, rfl⟩ := write_outcome hwrite
    exact ih hlimit hle hlt
  | case4 s octets hne s' cause hwrite =>
    obtain ⟨hhere, rfl, rfl⟩ := write_outcome hwrite
    obtain rfl : s.offset = limit := Option.some.inj (hhere.symm.trans hlimit)
    exact ⟨s.interrupts, by simp⟩

end Provision.Sink
