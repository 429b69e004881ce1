import Provision.Compilation
import Provision.Proofs.Archive.RoundTrip
import Provision.Proofs.Output.Guard

/-! # Renderings that are cut short

Whatever a sink does, it holds a beginning of the output: all of it where the sink does not fail, and otherwise
what comes before the offset of the failure. The failure is reported for the node whose output has that offset.

* `Backend.outputOf`, `Backend.ending` — the output of a node, and what comes after that of all nodes.
* `Backend.IsCut`, `Backend.render_isCut` — the statement.
-/

namespace Provision

/-! ## The output of a node -/

namespace Backend

/-- The pieces that belong to a node. -/
def nodePieces (backend : Backend) (n : Node) : Pieces :=
  match backend with
  | archive options =>
    if Archive.skips n then []
    else (n.state.entry?.toList.flatMap (Member.pieces options n)).map (Owner.node n.path, ·)
  | plan .text => (Plan.lines n).map fun line => (.node n.path, utf8 (line ++ "\n"))
  | plan .json => []

/-- The output of a node: in an archive its records, its header, its content and what fills up the blocks; in a
    text its lines. A document is not cut into the output of its nodes. -/
def outputOf (backend : Backend) (n : Node) : Octets := (backend.nodePieces n).octets

/-- The pieces that come after those of all nodes. -/
def endingPieces (backend : Backend) (s : Sequence) : Pieces :=
  match backend with
  | archive _ => [(.closing, Archive.closing)]
  | plan .text => []
  | plan .json => [(.document, utf8 (Plan.document s.nodes).pretty), (.closing, utf8 "\n")]

/-- What comes after the output of all nodes. -/
def ending (backend : Backend) (s : Sequence) : Octets := (backend.endingPieces s).octets

theorem length_ending (options : ArchiveOptions) (s : Sequence) :
    ((archive options).ending s).length = 1024 := by
  rw [ending, endingPieces, Pieces.octets_cons, List.length_append, Archive.closing,
    List.length_replicate]
  rfl

theorem owner_of_mem_nodePieces {backend : Backend} {n : Node} :
    ∀ piece ∈ backend.nodePieces n, piece.1 = .node n.path := by
  intro piece hpiece
  unfold nodePieces at hpiece
  split at hpiece
  · split at hpiece
    · cases hpiece
    · obtain ⟨octets, -, rfl⟩ := List.mem_map.1 hpiece
      rfl
  · obtain ⟨line, -, rfl⟩ := List.mem_map.1 hpiece
    rfl
  · cases hpiece

theorem flatMap_members (options : ArchiveOptions) (nodes : List Node) :
    ((members ⟨nodes, []⟩).flatMap fun (node, spec) =>
      (Member.pieces options node spec).map (Owner.node node.path, ·)) =
      nodes.flatMap (nodePieces (archive options)) := by
  induction nodes with
  | nil => rfl
  | cons n nodes ih =>
    rw [List.flatMap_cons, ← ih, members, List.filterMap_cons, nodePieces]
    by_cases hskip : Archive.skips n
    · simp only [if_pos hskip, List.nil_append]
      rfl
    · cases hentry : n.state.entry? with
      | none => simp [hskip, members]
      | some spec => simp [hskip, members]

theorem pieces_eq (backend : Backend) (s : Sequence) :
    backend.pieces s = s.nodes.flatMap backend.nodePieces ++ backend.endingPieces s := by
  match backend with
  | archive options => rw [← flatMap_members]; rfl
  | plan .text => exact (List.append_nil _).symm
  | plan .json => rw [show nodePieces (plan .json) = fun _ => [] from rfl]; simp [pieces, endingPieces]

theorem octets_pieces_eq (backend : Backend) (s : Sequence) :
    (backend.pieces s).octets = s.nodes.flatMap backend.outputOf ++ backend.ending s := by
  rw [pieces_eq, Pieces.octets_append, Pieces.octets_flatMap]
  rfl

/-! ### Owners of offsets -/

theorem ownerAt?_node (backend : Backend) {s : Sequence} {before after : List Node} {n : Node}
    (heq : s.nodes = before ++ n :: after) {offset : Nat}
    (hle : (before.flatMap backend.outputOf).length ≤ offset)
    (hlt : offset < (before.flatMap backend.outputOf).length + (backend.outputOf n).length) :
    (backend.pieces s).ownerAt? offset = some (.node n.path) := by
  have hbefore : (Pieces.octets (before.flatMap backend.nodePieces)) = before.flatMap backend.outputOf :=
    Pieces.octets_flatMap _ _
  have hself : offset - (Pieces.octets (before.flatMap backend.nodePieces)).length <
      (Pieces.octets (backend.nodePieces n)).length := by
    rw [hbefore]
    have : (Pieces.octets (backend.nodePieces n)).length = (backend.outputOf n).length := rfl
    omega
  -- Past the pieces of the nodes before, and not yet past those of the node.
  rw [pieces_eq, heq, List.flatMap_append, List.flatMap_cons, List.append_assoc, List.append_assoc,
    Pieces.ownerAt?_append_of_le (by rw [hbefore]; exact hle), Pieces.ownerAt?_append_of_lt hself]
  exact Pieces.ownerAt?_of_forall owner_of_mem_nodePieces hself

theorem exists_ownerAt?_node (backend : Backend) (s : Sequence) {offset : Nat}
    (hlt : offset < (s.nodes.flatMap backend.outputOf).length) :
    ∃ n ∈ s.nodes, (backend.pieces s).ownerAt? offset = some (.node n.path) := by
  have hlt' : offset < (Pieces.octets (s.nodes.flatMap backend.nodePieces)).length := by
    rwa [Pieces.octets_flatMap]
  obtain ⟨owner, howner⟩ := Pieces.exists_ownerAt? hlt'
  obtain ⟨piece, hpiece, rfl⟩ := List.mem_map.1 (Pieces.mem_of_ownerAt? howner)
  obtain ⟨n, hn, hpiece⟩ := List.mem_flatMap.1 hpiece
  refine ⟨n, hn, ?_⟩
  rw [pieces_eq, Pieces.ownerAt?_append_of_lt hlt', howner, owner_of_mem_nodePieces piece hpiece]

theorem ownerAt?_closing (options : ArchiveOptions) (s : Sequence) {offset : Nat}
    (hle : (s.nodes.flatMap (archive options).outputOf).length ≤ offset)
    (hlt : offset < ((archive options).pieces s).octets.length) :
    ((archive options).pieces s).ownerAt? offset = some .closing := by
  rw [octets_pieces_eq, List.length_append] at hlt
  have hnodes : (Pieces.octets (s.nodes.flatMap (archive options).nodePieces)) =
      s.nodes.flatMap (archive options).outputOf := Pieces.octets_flatMap _ _
  rw [pieces_eq, Pieces.ownerAt?_append_of_le (by rwa [hnodes]), hnodes]
  apply Pieces.ownerAt?_of_forall (by simp [endingPieces])
  rw [ending] at hlt
  omega

/-! ## The statement -/

/-- What becomes of an output when the sink fails at an offset. -/
structure IsCut (backend : Backend) (s : Sequence) (whole : Octets) (limit : Nat) (cause : String)
    (sink : Sink) (result : Except BackendError Unit) : Prop where
  /-- The sink has what comes before the offset, and nothing else. -/
  received : sink.received = whole.take limit
  /-- The rendering succeeds exactly when the output ends before the sink fails. -/
  complete : result = .ok () ↔ whole.length ≤ limit
  /-- A failure in the output of a node is reported for the node. -/
  node : ∀ before n after, s.nodes = before ++ n :: after →
    (before.flatMap backend.outputOf).length ≤ limit →
    limit < (before.flatMap backend.outputOf).length + (backend.outputOf n).length →
    result = .error (.write n.path cause)
  /-- A failure in the closing blocks of an archive, and no other, is reported for the end of the archive. -/
  closing : ∀ options, backend = .archive options → (result = .error (.finish cause) ↔
    whole.length - 1024 ≤ limit ∧ limit < whole.length)

theorem isCut_writeTo (backend : Backend) (s : Sequence) (limit : Nat) (interrupts : List Nat)
    (cause : String) :
    backend.IsCut s (backend.pieces s).octets limit cause
      ((backend.pieces s).writeTo ⟨[], some limit, interrupts, cause⟩).1
      ((backend.pieces s).writeTo ⟨[], some limit, interrupts, cause⟩).2 := by
  have hwhole := backend.octets_pieces_eq s
  by_cases hfits : (backend.pieces s).octets.length ≤ limit
  · have hroom : ∀ limit', (⟨[], some limit, interrupts, cause⟩ : Sink).limit = some limit' →
        (⟨[], some limit, interrupts, cause⟩ : Sink).offset + (backend.pieces s).octets.length ≤ limit' := by
      rintro limit' ⟨⟩
      simpa [Sink.offset] using hfits
    obtain ⟨left, -, heq⟩ := Pieces.writeTo_of_fits hroom
    rw [heq]
    refine ⟨(List.take_of_length_le hfits).symm, iff_of_true rfl hfits, ?_, ?_⟩
    · intro before n after hnodes hle hlt
      rw [hwhole, hnodes, List.flatMap_append, List.flatMap_cons] at hfits
      simp only [List.length_append] at hfits
      omega
    · intro options _
      exact iff_of_false (by simp) (by omega)
  · have hlt : limit < (backend.pieces s).octets.length := Nat.lt_of_not_le hfits
    have hlimit : (⟨[], some limit, interrupts, cause⟩ : Sink).limit = some limit := rfl
    obtain ⟨owner, left, howner, heq⟩ := Pieces.writeTo_of_exceeds hlimit (Nat.zero_le _)
      (by simpa [Sink.offset] using hlt)
    rw [heq]
    refine ⟨rfl, iff_of_false (by simp) hfits, ?_, ?_⟩
    · intro before n after hnodes hle hlt
      cases howner.symm.trans (backend.ownerAt?_node hnodes hle hlt)
      rfl
    · rintro options rfl
      have hlength : ((archive options).pieces s).octets.length =
          (s.nodes.flatMap (archive options).outputOf).length + 1024 := by
        rw [hwhole, List.length_append, length_ending]
      constructor
      · intro hresult
        refine ⟨?_, hlt⟩
        by_contra hbefore
        -- In front of the closing blocks the failure would be that of a node.
        have hinside : limit < (s.nodes.flatMap (archive options).outputOf).length := by omega
        obtain ⟨n, -, hnode⟩ := (archive options).exists_ownerAt?_node s hinside
        cases howner.symm.trans hnode
        cases hresult
      · rintro ⟨hle, -⟩
        have hbehind : (s.nodes.flatMap (archive options).outputOf).length ≤ limit := by omega
        cases howner.symm.trans (ownerAt?_closing options s hbehind hlt)
        rfl

/-- What cannot be represented is not written at all. Everything else has an output, which a sink that never
    fails takes whole; one that fails at an offset holds what comes before it, wherever it interrupts, even if
    the archive is closed after the failure. -/
theorem render_isCut (backend : Backend) (s : Sequence) :
    (∀ e, backend.check s = .error e → ∀ sink, backend.render s sink = (sink, .error e)) ∧
    (backend.check s = .ok () → ∃ whole,
      whole = s.nodes.flatMap backend.outputOf ++ backend.ending s ∧
      (∀ sink : Sink, sink.received = [] → sink.limit = none →
        (backend.render s sink).1.received = whole ∧ (backend.render s sink).2 = .ok ()) ∧
      (∀ limit interrupts cause, backend.IsCut s whole limit cause
        (backend.render s ⟨[], some limit, interrupts, cause⟩).1
        (backend.render s ⟨[], some limit, interrupts, cause⟩).2) ∧
      ∀ options, backend = .archive options → ∀ sink,
        Archive.writeClosed options s sink = backend.render s sink) := by
  cases hfault : backend.fault? s with
  | some e =>
    rw [check, hfault]
    refine ⟨?_, by rintro ⟨⟩⟩
    rintro _ ⟨⟩ sink
    rw [render, hfault]
  | none =>
    have hrender : ∀ sink, backend.render s sink = (backend.pieces s).writeTo sink := by
      intro sink
      rw [render, hfault]
    rw [check, hfault]
    refine ⟨by rintro _ ⟨⟩, fun _ => ⟨_, backend.octets_pieces_eq s, ?_, ?_, ?_⟩⟩
    · intro sink hempty hlimit
      have hroom : ∀ limit, sink.limit = some limit →
          sink.offset + (backend.pieces s).octets.length ≤ limit := by
        intro limit h
        cases hlimit.symm.trans h
      obtain ⟨left, -, heq⟩ := Pieces.writeTo_of_fits hroom
      rw [hrender, heq, hempty]
      exact ⟨rfl, rfl⟩
    · intro limit interrupts cause
      rw [hrender]
      exact backend.isCut_writeTo s limit interrupts cause
    · rintro options rfl sink
      rw [hrender, Archive.writeClosed_eq]

def greeting : List Declaration :=
  [⟨⟨["motd"], by decide⟩, .entry (.bare (.file [72, 105, 10])), ⟨"site", 0⟩, [], by decide, by decide⟩]

def withdrawal : Sequence := ⟨[⟨⟨["motd"], by decide⟩, .absent, ∅, ∅, [], 0⟩], []⟩

set_option maxRecDepth 20000 in
/-- The sink fails in the content of the file, or in the closing blocks; the removal is not written at all. -/
theorem greeting_isCut : ∃ s, resolve .strict greeting = .ok s ∧ (archive ⟨7⟩).check s = .ok () ∧
    ((archive ⟨7⟩).render s ⟨[], some 600, [0, 600], "disk full"⟩).1.received.length = 600 ∧
    ((archive ⟨7⟩).render s ⟨[], some 600, [0, 600], "disk full"⟩).2 =
      .error (.write ⟨["motd"], by decide⟩ "disk full") ∧
    ((archive ⟨7⟩).render s ⟨[], some 1500, [], "disk full"⟩).2 = .error (.finish "disk full") ∧
    ((archive ⟨7⟩).render s ⟨[], some 2048, [2048], "disk full"⟩).2 = .ok () ∧
    (archive ⟨7⟩).check withdrawal = .error (.unsupported ⟨["motd"], by decide⟩) ∧
    (archive ⟨7⟩).render withdrawal .unlimited =
      (.unlimited, .error (.unsupported ⟨["motd"], by decide⟩)) := by
  have hrun : (resolve .strict greeting).toOption.map (fun s =>
      (((archive ⟨7⟩).fault? s).isNone, s.nodes.map (·.path),
        s.nodes.map fun n => ((archive ⟨7⟩).outputOf n).length)) =
      some (true, [.root, ⟨["motd"], by decide⟩], [0, 1024]) := by cbv
  have hwithdrawal : (archive ⟨7⟩).check withdrawal = .error (.unsupported ⟨["motd"], by decide⟩) := rfl
  cases hs : resolve .strict greeting with
  | error e => rw [hs] at hrun; cases hrun
  | ok s =>
    rw [hs] at hrun
    simp only [Except.toOption, Option.map_some, Option.some.injEq, Prod.mk.injEq] at hrun
    obtain ⟨hfault, hpaths, hlengths⟩ := hrun
    have hcheck : (archive ⟨7⟩).check s = .ok () := by
      rw [check, Option.isNone_iff_eq_none.1 hfault]
    obtain ⟨root, motd, hnodes⟩ : ∃ root motd, s.nodes = [root, motd] :=
      List.length_eq_two.1 (by simpa using congrArg List.length hpaths)
    simp only [hnodes, List.map_cons, List.map_nil, List.cons.injEq, and_true] at hpaths hlengths
    obtain ⟨whole, hwhole, -, hcut, -⟩ := (render_isCut (archive ⟨7⟩) s).2 hcheck
    have hlength : whole.length = 2048 := by
      rw [hwhole, hnodes]
      simp [hlengths.1, hlengths.2, length_ending]
    refine ⟨s, rfl, hcheck, ?_, ?_, ?_, ?_, hwithdrawal, ?_⟩
    · rw [(hcut 600 [0, 600] "disk full").received, List.length_take, hlength]
      rfl
    · rw [← hpaths.2]
      apply (hcut 600 [0, 600] "disk full").node [root] motd [] hnodes
      · simp [hlengths.1]
      · simp [hlengths.1, hlengths.2]
    · exact ((hcut 1500 [] "disk full").closing ⟨7⟩ rfl).2 (by omega)
    · exact (hcut 2048 [2048] "disk full").complete.2 (by omega)
    · exact (render_isCut (archive ⟨7⟩) withdrawal).1 _ hwithdrawal .unlimited

end Backend

end Provision
