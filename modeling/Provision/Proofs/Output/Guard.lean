import Provision.Output.Rendering

/-! # Archives that are closed in any case

What writes an archive puts the closing blocks behind it even when it gives up halfway, and a sink that has
recovered by then would make a torn archive look whole. A guard in front of the sink prevents that: after the
first failure it lets nothing through.

* `Guard.write`, `Guard.writeAll` — a sink behind a guard.
* `Archive.writeClosed` — an archive that is closed in any case; `writeClosed_eq` — behind a guard this is the
  same as giving up at the first failure.
-/

namespace Provision

/-- A sink, and whether it has failed. -/
structure Guard where
  sink : Sink
  failed : Bool

namespace Guard

/-- One attempt to write: refused once the sink has failed. -/
def write (g : Guard) (octets : Octets) : Guard × Attempt :=
  if g.failed then (g, .failed "archive sink failed earlier")
  else match g.sink.write octets with
    | (sink, .failed cause) => (⟨sink, true⟩, .failed cause)
    | (sink, attempt) => (⟨sink, false⟩, attempt)

theorem write_of_failed {g : Guard} (h : g.failed) (octets : Octets) :
    g.write octets = (g, .failed "archive sink failed earlier") := by
  rw [write, if_pos h]

theorem write_open (sink : Sink) (octets : Octets) :
    (⟨sink, false⟩ : Guard).write octets = match sink.write octets with
      | (sink, .failed cause) => (⟨sink, true⟩, .failed cause)
      | (sink, attempt) => (⟨sink, false⟩, attempt) := rfl

/-- An attempt that takes something leaves less to write, one that is interrupted leaves fewer interrupts. -/
theorem write_decreases {g g' : Guard} {octets : Octets} (hne : octets ≠ []) :
    (∀ count, g.write octets = (g', .took count) →
      (octets.drop count).length + g'.sink.interrupts.length < octets.length + g.sink.interrupts.length) ∧
    (g.write octets = (g', .interrupted) → g'.sink.interrupts.length < g.sink.interrupts.length) := by
  obtain ⟨sink, failed⟩ := g
  cases failed with
  | true => simp [write]
  | false =>
    rw [write_open]
    cases hwrite : sink.write octets with
    | mk sink' attempt =>
      cases attempt with
      | took count =>
        obtain ⟨rfl, hinterrupts⟩ := Sink.write_took hwrite
        have hpos := List.length_pos_iff.2 hne
        have := sink.capacity_pos hpos
        constructor
        · rintro count ⟨⟩
          simp only [List.length_drop, hinterrupts]
          omega
        · rintro ⟨⟩
      | interrupted =>
        refine ⟨(by rintro count ⟨⟩), ?_⟩
        rintro ⟨⟩
        exact Sink.write_interrupted hwrite
      | failed cause => exact ⟨(by rintro count ⟨⟩), (by rintro ⟨⟩)⟩

/-- Attempts until all octets are taken, or the cause of the failure. -/
def writeAll (g : Guard) (octets : Octets) : Guard × Option String :=
  if _hne : octets = [] then (g, none)
  else match _h : g.write octets with
    | (g', .took count) => writeAll g' (octets.drop count)
    | (g', .interrupted) => writeAll g' octets
    | (g', .failed cause) => (g', some cause)
termination_by octets.length + g.sink.interrupts.length
decreasing_by
  · exact (write_decreases _hne).1 count _h
  · exact Nat.add_lt_add_left ((write_decreases _hne).2 _h) _

/-- Nothing gets through a guard whose sink has failed. -/
theorem writeAll_of_failed {g : Guard} (h : g.failed) (octets : Octets) : (g.writeAll octets).1 = g := by
  rw [writeAll]
  split
  · rfl
  · split <;> rename_i hwrite <;> rw [write_of_failed h] at hwrite <;> cases hwrite
    rfl

/-- As long as the sink has not failed, the guard is not felt. -/
theorem writeAll_open (sink : Sink) (octets : Octets) :
    (⟨sink, false⟩ : Guard).writeAll octets =
      (⟨(sink.writeAll octets).1, (sink.writeAll octets).2.isSome⟩, (sink.writeAll octets).2) := by
  fun_induction Sink.writeAll sink octets with
  | case1 sink => rw [writeAll, dif_pos rfl]; rfl
  | case2 sink octets hne sink' count hwrite ih =>
    have hopen : (⟨sink, false⟩ : Guard).write octets = (⟨sink', false⟩, .took count) := by
      rw [write_open, hwrite]
    rw [writeAll, dif_neg hne]
    split <;> rename_i h <;> rw [hopen] at h <;> cases h
    exact ih
  | case3 sink octets hne sink' hwrite ih =>
    have hopen : (⟨sink, false⟩ : Guard).write octets = (⟨sink', false⟩, .interrupted) := by
      rw [write_open, hwrite]
    rw [writeAll, dif_neg hne]
    split <;> rename_i h <;> rw [hopen] at h <;> cases h
    exact ih
  | case4 sink octets hne sink' cause hwrite =>
    have hopen : (⟨sink, false⟩ : Guard).write octets = (⟨sink', true⟩, .failed cause) := by
      rw [write_open, hwrite]
    rw [writeAll, dif_neg hne]
    split <;> rename_i h <;> rw [hopen] at h <;> cases h
    rfl

end Guard

namespace Pieces

/-- Write piece after piece through a guard, up to the first failure. -/
def writeGuarded (g : Guard) : Pieces → Guard × Except BackendError Unit
  | [] => (g, .ok ())
  | (owner, octets) :: rest =>
    match g.writeAll octets with
    | (g, none) => writeGuarded g rest
    | (g, some cause) => (g, .error (owner.error cause))

theorem writeGuarded_open (sink : Sink) (pieces : Pieces) :
    pieces.writeGuarded ⟨sink, false⟩ =
      (⟨(pieces.writeTo sink).1, !(pieces.writeTo sink).2.isOk⟩, (pieces.writeTo sink).2) := by
  induction pieces generalizing sink with
  | nil => rfl
  | cons piece pieces ih =>
    obtain ⟨owner, octets⟩ := piece
    rw [writeGuarded, writeTo, Guard.writeAll_open]
    cases hwrite : sink.writeAll octets with
    | mk sink' failure =>
      cases failure with
      | none => exact ih sink'
      | some cause => rfl

theorem writeTo_append (sink : Sink) (pieces more : Pieces) :
    Pieces.writeTo sink (pieces ++ more) = match pieces.writeTo sink with
      | (sink, .ok ()) => more.writeTo sink
      | (sink, .error e) => (sink, .error e) := by
  induction pieces generalizing sink with
  | nil => rfl
  | cons piece pieces ih =>
    obtain ⟨owner, octets⟩ := piece
    rw [List.cons_append, writeTo, writeTo]
    cases hwrite : sink.writeAll octets with
    | mk sink' failure =>
      cases failure with
      | none => exact ih sink'
      | some cause => rfl

end Pieces

namespace Archive

/-- The pieces of all members. -/
def memberPieces (options : ArchiveOptions) (s : Sequence) : Pieces :=
  (Backend.members s).flatMap fun (node, spec) =>
    (Member.pieces options node spec).map (Owner.node node.path, ·)

/-- The members of an archive, and behind them the closing blocks, whether or not all members were written. -/
def writeClosed (options : ArchiveOptions) (s : Sequence) (sink : Sink) : Sink × Except BackendError Unit :=
  match (memberPieces options s).writeGuarded ⟨sink, false⟩ with
  | (g, .error e) => ((g.writeAll closing).1.sink, .error e)
  | (g, .ok ()) =>
    match g.writeAll closing with
    | (g, none) => (g.sink, .ok ())
    | (g, some cause) => (g.sink, .error (.finish cause))

/-- Behind a guard, closing an archive that was given up adds nothing to it. -/
theorem writeClosed_eq (options : ArchiveOptions) (s : Sequence) (sink : Sink) :
    writeClosed options s sink = ((Backend.archive options).pieces s).writeTo sink := by
  rw [writeClosed, Pieces.writeGuarded_open, Backend.pieces, Pieces.writeTo_append]
  change _ = match (memberPieces options s).writeTo sink with
    | (sink, .ok ()) => Pieces.writeTo sink [(.closing, closing)]
    | (sink, .error e) => (sink, .error e)
  cases hwrite : (memberPieces options s).writeTo sink with
  | mk sink' result =>
    cases result with
    | error e => simp only [Except.isOk, Except.toBool, Bool.not_false, Guard.writeAll_of_failed]
    | ok =>
      simp only [Except.isOk, Except.toBool, Bool.not_true, Guard.writeAll_open, Pieces.writeTo]
      cases hclose : sink'.writeAll closing with
      | mk sink'' failure => cases failure <;> rfl

end Archive

end Provision
