import Provision.Proofs.Archive.Member
import Provision.Proofs.Extraction
import Provision.Proofs.Output.Pieces

/-! # Archives are read back

Whatever sequence an archive is rendered from, a reader of the format finds in it one member for each node,
with all that the node has, and stops at the two blocks that end it.

* `announced?_blocks` — a header and what it announces.
* `members?_pieces` — the member of a node; `members?_flatMap` — those of all nodes.
* `members?_render` — the archive of a resolved sequence.
-/

namespace Provision

open ArchiveReader

/-! ## One member -/

theorem body?_append (content rest : Octets) :
    body? content.length (content ++ blockFill content.length ++ rest) = some (content, rest) := by
  have hwhole : content.length + (512 - content.length % 512) % 512 =
      (content ++ blockFill content.length).length := by
    rw [List.length_append, blockFill, List.length_replicate]
  simp only [body?, hwhole]
  rw [if_pos (by simp only [List.length_append]; omega), List.drop_left, List.append_assoc,
    List.take_left]

theorem flatten_blocks (h : Header) (content rest : Octets) :
    (Member.blocks h content).flatten ++ rest =
      h.encode ++ (content ++ blockFill content.length ++ rest) := by
  simp [Member.blocks]

/-- A header and what it announces are read, and the rest is left. -/
theorem announced?_blocks {records : Records} {h : Header} (hencodable : h.IsEncodable)
    {content : Octets} (hsize : size? records h.shortened = some content.length) (rest : Octets) :
    announced? records ((Member.blocks h content).flatten ++ rest) =
      some (h.shortened, content, rest) := by
  have hblock : body? 512 (h.encode ++ (content ++ blockFill content.length ++ rest)) =
      some (h.encode, content ++ blockFill content.length ++ rest) := by
    have := body?_append h.encode (content ++ blockFill content.length ++ rest)
    rwa [h.length_encode, show blockFill 512 = [] from rfl, List.append_nil] at this
  rw [announced?, flatten_blocks, hblock]
  simp only [Option.bind_eq_bind, Option.bind_some, header?_encode hencodable, hsize, body?_append]

/-- A header is not taken for the end of an archive. -/
theorem take_blocks_ne (h : Header) (content rest : Octets) :
    ((Member.blocks h content).flatten ++ rest).take 1024 ≠ List.replicate 1024 0 := by
  intro heq
  -- The letters of the format are no zeros.
  have hmagic : (0x75 : UInt8) ∈ h.encode := by
    rw [Header.encode_eq]
    exact List.mem_flatten.2 ⟨utf8 "ustar\x0000", by simp [Header.fields], by decide⟩
  have htake : h.encode = (List.replicate 1024 (0 : UInt8)).take 512 := by
    rw [← heq, List.take_take, flatten_blocks, show min 512 1024 = h.encode.length from
      h.length_encode.symm, List.take_left]
  rw [htake, List.take_replicate] at hmagic
  exact absurd (List.eq_of_mem_replicate hmagic) (by decide)

/-- Records that are read hold for what follows. -/
theorem members?_of_extended {ahead records : Records} {h : Header} (hencodable : h.IsEncodable)
    (htype : h.memberType = .extended) {content : Octets} (hlength : h.size = content.length)
    (hrecords : records? content = some records) (rest : Octets) :
    members? ahead ((Member.blocks h content).flatten ++ rest) = members? records rest := by
  have hsize : size? ahead h.shortened = some content.length := by
    rw [size?, if_pos (show h.shortened.memberType = .extended from htype)]
    exact congrArg some hlength
  rw [members?, if_neg (take_blocks_ne h content rest), announced?_blocks hencodable hsize rest]
  simp only [show h.shortened.memberType = .extended from htype, if_true, hrecords]

/-- A member that is read comes before what follows. -/
theorem members?_of_member {records : Records} {h : Header} (hencodable : h.IsEncodable)
    (htype : h.memberType ≠ .extended) {content : Octets} {found : Found}
    (hsize : size? records h.shortened = some content.length)
    (hmember : member? records h.shortened content = some found) {rest stop : Octets}
    {more : List Found} (hrest : members? [] rest = some (more, stop)) :
    members? records ((Member.blocks h content).flatten ++ rest) = some (found :: more, stop) := by
  have htype' : h.shortened.memberType ≠ .extended := htype
  rw [members?, if_neg (take_blocks_ne h content rest), announced?_blocks hencodable hsize rest]
  simp only [if_neg htype', hmember, hrest]

/-- Whether an archive has room for a node: it is valid, its device numbers fit, and so does the length of
    its records. -/
structure Member.Fits (options : ArchiveOptions) (node : Node) (spec : EntrySpec) : Prop where
  validNode : node.IsValid
  validSpec : spec.IsValid
  numbers : Archive.entryFault? spec.entry = none
  length : (Member.ofNode options node spec).records.encode.length ≤ Archive.largestLong

theorem flatten_pieces (options : ArchiveOptions) (node : Node) (spec : EntrySpec) (rest : Octets) :
    (Member.pieces options node spec).flatten ++ rest =
      (if (Member.ofNode options node spec).records.isEmpty then []
        else (Member.blocks
          (Member.recordsHeader options node spec
            (Member.ofNode options node spec).records.encode.length)
          (Member.ofNode options node spec).records.encode).flatten) ++
      ((Member.blocks (Member.ofNode options node spec).header
        (Member.ofNode options node spec).content).flatten ++ rest) := by
  simp only [Member.pieces, List.flatten_append, List.append_assoc]
  split <;> rfl

theorem members?_pieces {options : ArchiveOptions} {node : Node} {spec : EntrySpec}
    (h : Member.Fits options node spec) {rest stop : Octets} {more : List Found}
    (hrest : members? [] rest = some (more, stop)) :
    members? [] ((Member.pieces options node spec).flatten ++ rest) =
      some (Found.ofNode options node spec :: more, stop) := by
  have hmember : members? (Member.readRecords options node spec)
      ((Member.blocks (Member.ofNode options node spec).header
        (Member.ofNode options node spec).content).flatten ++ rest) =
      some (Found.ofNode options node spec :: more, stop) :=
    members?_of_member (Member.isEncodable_ofNode options node h.validSpec h.numbers)
      (Member.typeOf_ne_extended spec.entry) (Member.size?_ofNode options node spec)
      (Member.member?_ofNode options node spec) hrest
  rw [flatten_pieces]
  -- A header that has room for everything goes without records.
  by_cases hempty : (Member.ofNode options node spec).records.isEmpty
  · have hnone : Member.readRecords options node spec = [] := by
      rw [Member.readRecords, List.isEmpty_iff.1 hempty, List.map_nil]
    rw [if_pos hempty, List.nil_append, ← hmember, hnone]
  · have hrecords : records? (Member.ofNode options node spec).records.encode =
        some (Member.readRecords options node spec) :=
      records?_encode (Member.equals_not_mem_keys options h.validNode spec)
    have hencodable := Member.isEncodable_recordsHeader options node spec h.length
    rw [if_neg hempty, members?_of_extended hencodable rfl rfl hrecords, hmember]

/-! ## All members -/

/-- Nothing follows the blocks that end an archive. -/
theorem members?_closing : members? [] Archive.closing = some ([], Archive.closing) := by
  rw [members?, if_pos (by rw [Archive.closing, List.take_replicate]; rfl), if_pos rfl]

theorem members?_flatMap {options : ArchiveOptions} {l : List (Node × EntrySpec)}
    (h : ∀ e ∈ l, Member.Fits options e.1 e.2) :
    members? [] ((l.flatMap fun e => (Member.pieces options e.1 e.2).flatten) ++ Archive.closing) =
      some (l.map fun e => Found.ofNode options e.1 e.2, Archive.closing) := by
  induction l with
  | nil => exact members?_closing
  | cons e l ih =>
    rw [List.flatMap_cons, List.append_assoc]
    exact members?_pieces (h e List.mem_cons_self) (ih fun e he => h e (List.mem_cons_of_mem _ he))

/-! ## Rendering -/

theorem octets_pieces (options : ArchiveOptions) (s : Sequence) :
    ((Backend.archive options).pieces s).octets =
      ((Backend.members s).flatMap fun e => (Member.pieces options e.1 e.2).flatten) ++
        Archive.closing := by
  simp only [Backend.pieces, Pieces.octets, List.flatMap_append, List.flatMap_assoc,
    List.flatMap_map, List.flatMap_singleton, List.flatMap_id']

theorem closing_suffix_octets_pieces (options : ArchiveOptions) (s : Sequence) :
    Archive.closing <:+ ((Backend.archive options).pieces s).octets := by
  rw [octets_pieces]
  exact List.suffix_append _ _

/-! ## The archive of a sequence -/

/-- An undeclared root about which nothing is said: it is left to whoever unpacks the archive. -/
def Node.IsBareRoot (n : Node) : Prop :=
  n.path = .root ∧ n.state = .implicit .none ∧ n.xattrs.entries = []

instance (n : Node) : Decidable n.IsBareRoot := inferInstanceAs (Decidable (_ ∧ _ ∧ _))

theorem skips_iff {n : Node} : Archive.skips n = true ↔ n.IsBareRoot := by
  have hroot : n.path.isRoot = true ↔ n.path = .root := by
    rw [TargetPath.isRoot, List.isEmpty_iff]
    exact ⟨fun h => TargetPath.ext h, fun h => by rw [h]; rfl⟩
  simp only [Archive.skips, Node.IsBareRoot, Bool.and_eq_true, decide_eq_true_eq, hroot,
    SortedMap.isEmpty, List.isEmpty_iff]
  tauto

theorem of_check {options : ArchiveOptions} {s : Sequence}
    (h : (Backend.archive options).check s = .ok ()) :
    (Backend.archive options).fault? s = none ∧
      ∀ n ∈ s.nodes, ∃ spec, n.state.entry? = some spec ∧ Archive.entryFault? spec.entry = none := by
  have hfault : (Backend.archive options).fault? s = none := by
    unfold Backend.check at h
    split at h
    · cases h
    · assumption
  refine ⟨hfault, fun n hn => ?_⟩
  have hnode := List.findSome?_eq_none_iff.1 hfault n hn
  unfold Node.isRemoval at hnode
  cases hstate : n.state with
  | absent =>
    rw [hstate] at hnode
    cases hnode
  | declared spec =>
    simp only [hstate, Archive.fault?, NodeState.entry?] at hnode
    simp at hnode
    exact ⟨spec, rfl, hnode.2⟩
  | implicit permissions => exact ⟨_, rfl, rfl⟩

/-- Each node but a bare root has its member, in the order of the nodes. -/
theorem map_members (options : ArchiveOptions) {nodes : List Node}
    (h : ∀ n ∈ nodes, ∃ spec, n.state.entry? = some spec) :
    (nodes.filter fun n => ¬n.IsBareRoot).map
        (fun n => n.state.entry?.map (Found.ofNode options n)) =
      ((Backend.members ⟨nodes, []⟩).map fun e => Found.ofNode options e.1 e.2).map some := by
  induction nodes with
  | nil => rfl
  | cons n nodes ih =>
    obtain ⟨spec, hspec⟩ := h n List.mem_cons_self
    have hrest := ih fun n hn => h n (List.mem_cons_of_mem _ hn)
    rw [Backend.members] at hrest ⊢
    by_cases hskip : n.IsBareRoot
    · rw [List.filter_cons_of_neg (by simpa using hskip), hrest, List.filterMap_cons,
        if_pos (skips_iff.2 hskip)]
    · rw [List.filter_cons_of_pos (by simpa using hskip), List.map_cons, hrest, List.filterMap_cons,
        if_neg (hskip ∘ skips_iff.1), hspec]
      rfl

theorem mem_of_mem_members {s : Sequence} {e : Node × EntrySpec} (h : e ∈ Backend.members s) :
    e.1 ∈ s.nodes ∧ e.1.state.entry? = some e.2 := by
  obtain ⟨n, hn, he⟩ := List.mem_filterMap.1 h
  split at he
  · cases he
  · obtain ⟨spec, hspec, rfl⟩ := Option.map_eq_some_iff.1 he
    exact ⟨hn, hspec⟩

theorem isValid_of_resolve {strictness : Strictness} {ds : List Declaration} {s : Sequence}
    (h : resolve strictness ds = .ok s) {n : Node} (hn : n ∈ s.nodes) : n.IsValid := by
  obtain ⟨g, b, drafts, hbuild, -, hleast⟩ := exists_isBuilt_of_resolve h
  exact Graph.isValid_of_build hbuild (hleast.perm.mem_iff.1 hn)

/-- The archive of a sequence that declarations resolve to is read back: it ends with two blocks of zeros, at
    which the reader stops, and before them each node but a bare root has its member, in the order of the
    nodes. -/
theorem members?_render {strictness : Strictness} {ds : List Declaration} {s : Sequence}
    (hresolve : resolve strictness ds = .ok s) {options : ArchiveOptions}
    (hcheck : (Backend.archive options).check s = .ok ())
    (hrecords : ∀ n ∈ s.nodes, ∀ spec, n.state.entry? = some spec →
      (Member.ofNode options n spec).records.encode.length < 8 * 2 ^ 30) :
    ∃ octets found,
      (Backend.archive options).render s .unlimited =
        ({ Sink.unlimited with received := octets }, .ok ()) ∧
      List.replicate 1024 0 <:+ octets ∧
      members? [] octets = some (found, List.replicate 1024 0) ∧
      (s.nodes.filter fun n => ¬n.IsBareRoot).map
        (fun n => n.state.entry?.map (Found.ofNode options n)) = found.map some := by
  obtain ⟨hfault, hnodes⟩ := of_check hcheck
  have hfits : ∀ e ∈ Backend.members s, Member.Fits options e.1 e.2 := by
    intro e he
    obtain ⟨hn, hspec⟩ := mem_of_mem_members he
    obtain ⟨spec, hspec', hnumbers⟩ := hnodes e.1 hn
    obtain rfl : spec = e.2 := Option.some.inj (hspec'.symm.trans hspec)
    have hvalid := isValid_of_resolve hresolve hn
    have hlength := hrecords e.1 hn e.2 hspec
    refine ⟨hvalid, hvalid.spec e.2 hspec, hnumbers, ?_⟩
    rw [Archive.largestLong]
    omega
  refine ⟨((Backend.archive options).pieces s).octets, _, ?_, ?_, ?_,
    map_members options fun n hn => (hnodes n hn).imp fun _ h => h.1⟩
  · rw [Backend.render, hfault]
    exact Pieces.writeTo_unlimited _ []
  · exact closing_suffix_octets_pieces options s
  · rw [octets_pieces]
    exact members?_flatMap hfits

/-- A file with an owner whose id has no room in a header and with an attribute that is empty, and a device. -/
def packed : List Declaration :=
  [⟨⟨["etc", "motd"], by decide⟩,
      .entry ⟨.file [72, 105, 10], ⟨some ⟨0o600⟩, some ⟨some "web", some 2097152⟩, none⟩, none, some 5⟩,
      ⟨"site", 0⟩, [], by decide, by decide⟩,
    ⟨⟨["etc", "motd"], by decide⟩, .xattr ⟨"user.note", []⟩, ⟨"site", 1⟩, [], by decide, by decide⟩,
    ⟨⟨["null"], by decide⟩, .entry (.bare (.device .char 1 3)), ⟨"site", 2⟩, [], by decide, by decide⟩]

/-- What is read of it, at a time of its own. -/
def packedMembers : List Found :=
  [⟨utf8 "etc/", .directory, 0o755, 0, 0, [], [], 7, none, [], none, [], []⟩,
    ⟨utf8 "etc/motd", .regular, 0o600, 2097152, 0, utf8 "web", [], 7, some 5, [], none,
      [(utf8 "user.note", [])], [72, 105, 10]⟩,
    ⟨utf8 "null", .charDevice, 0o644, 0, 0, [], [], 7, none, [], some (1, 3), [], []⟩]

/-- The directory, the file and the device are read back; the root has no member. -/
theorem packed_members : ∃ s octets, resolve .strict packed = .ok s ∧
    (Backend.archive ⟨7⟩).render s .unlimited = ({ Sink.unlimited with received := octets }, .ok ()) ∧
    members? [] octets = some (packedMembers, List.replicate 1024 0) := by
  have hrun : (resolve .strict packed).toOption.map (fun s =>
      (((Backend.archive ⟨7⟩).fault? s).isNone,
        s.nodes.all fun n => n.state.entry?.all fun spec =>
          (Member.ofNode ⟨7⟩ n spec).records.encode.length < 8 * 2 ^ 30,
        (s.nodes.filter fun n => ¬n.IsBareRoot).map fun n =>
          n.state.entry?.map (Found.ofNode ⟨7⟩ n))) =
      some (true, true, packedMembers.map some) := by cbv
  cases hs : resolve .strict packed with
  | error e => rw [hs] at hrun; cases hrun
  | ok s =>
    rw [hs] at hrun
    obtain ⟨hfault, hrecords, hfound⟩ := by simpa only [Prod.mk.injEq] using Option.some.inj hrun
    have hcheck : (Backend.archive ⟨7⟩).check s = .ok () := by
      rw [Backend.check, Option.isNone_iff_eq_none.1 hfault]
    obtain ⟨octets, found, hrender, -, hread, hmembers⟩ := members?_render hs hcheck
      (fun n hn spec hspec => by simpa [hspec] using List.all_eq_true.1 hrecords n hn)
    rw [hfound] at hmembers
    rw [(List.map_inj_right fun _ _ => Option.some.inj).1 hmembers]
    exact ⟨s, octets, rfl, hrender, hread⟩

end Provision
