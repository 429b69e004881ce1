import Mathlib.Algebra.Group.Action.Defs
import Mathlib.Algebra.GroupWithZero.Nat
import Provision.Proofs.Output.Failure
import Provision.Separated

/-! # Lines of a plan

A plan as text has a line for each node, and beneath it an indented line for each attribute of the node. The names in
it are written as they are, so that holds as long as none of them brings a newline along.

* `newlines` — the newlines of a text.
* `pieces_flatMap_iff` — when lines that are ended by a separator come apart into themselves.
* `Plan.names` — the names on the lines of a node; `Plan.sum_newlines_lines` — the lines have no newlines but theirs.
* `Plan.IsListing`, `Plan.bytes_isListing` — the statement.
-/

namespace Provision

/-! ## Newlines -/

/-- How many newlines a text has. -/
def newlines (s : String) : Nat := s.toList.count '\n'

@[simp]
theorem newlines_toString (s : String) : newlines (toString s) = newlines s := rfl

@[simp]
theorem newlines_append (s t : String) : newlines (s ++ t) = newlines s + newlines t := by
  simp [newlines]

theorem newlines_eq_zero_iff {s : String} : newlines s = 0 ↔ '\n' ∉ s.toList :=
  List.count_eq_zero

theorem newlines_of_not_mem {s : String} (h : '\n' ∉ s.toList) : newlines s = 0 :=
  newlines_eq_zero_iff.2 h

theorem newlines_ofList_replicate {c : Char} (h : c ≠ '\n') (n : Nat) :
    newlines (String.ofList (List.replicate n c)) = 0 := by
  simp [newlines, List.count_replicate, h]

theorem newlines_toDigits {base : Nat} (hbase : 1 < base) (hten : base ≤ 10) (n : Nat) :
    newlines (String.ofList (Nat.toDigits base n)) = 0 := by
  rw [newlines_eq_zero_iff, String.toList_ofList]
  intro hmem
  obtain ⟨d, hd, heq⟩ := exists_of_mem_toDigits hbase hmem
  -- The digits start at 0x30, far above the newline.
  have hnat := congrArg Char.toNat heq
  rw [Nat.toNat_digitChar_of_lt_ten (by omega)] at hnat
  exact absurd hnat (by simp; omega)

@[simp]
theorem newlines_repr (n : Nat) : newlines n.repr = 0 :=
  newlines_toDigits (by decide) (by decide) n

@[simp]
theorem newlines_widened (width : Nat) (s : String) : newlines (Text.widened width s) = newlines s := by
  rw [Text.widened, newlines_append, newlines_ofList_replicate (by decide), Nat.add_zero]

@[simp]
theorem newlines_kind_text (kind : Kind) : newlines kind.text = 0 := by
  cases kind <;> decide

@[simp]
theorem newlines_mode_text (mode : Mode) : newlines mode.text = 0 := by
  rw [Mode.text, Text.padded, newlines_append, newlines_ofList_replicate (by decide), Nat.zero_add]
  exact newlines_toDigits (by decide) (by decide) _

/-! ## Ended lines -/

section Ended

variable {α : Type} [DecidableEq α] {sep : α}

theorem pieces_flatMap_of_not_mem {lines : List (List α)} (h : ∀ line ∈ lines, sep ∉ line) :
    pieces sep (lines.flatMap (· ++ [sep])) = lines ++ [[]] := by
  induction lines with
  | nil => rfl
  | cons line lines ih =>
    rw [List.flatMap_cons, List.append_assoc, List.singleton_append, pieces_append_sep (h line List.mem_cons_self),
      ih fun l hl => h l (List.mem_cons_of_mem _ hl), List.cons_append]

/-- Lines that are ended by a separator come apart into the same lines exactly when none of them holds one. -/
theorem pieces_flatMap_iff {lines : List (List α)} :
    pieces sep (lines.flatMap (· ++ [sep])) = lines ++ [[]] ↔ ∀ line ∈ lines, sep ∉ line := by
  -- Conversely each line is then one of the pieces, which hold no separator.
  refine ⟨fun h line hline => ?_, pieces_flatMap_of_not_mem⟩
  have hpiece : line ∈ pieces sep (lines.flatMap (· ++ [sep])) := by
    rw [h]
    exact List.mem_append_left _ hline
  exact sep_not_mem_pieces hpiece

theorem count_flatMap_concat (lines : List (List α)) :
    (lines.flatMap (· ++ [sep])).count sep = (lines.map (·.count sep)).sum + lines.length := by
  induction lines with
  | nil => rfl
  | cons line lines ih =>
    simp only [List.flatMap_cons, List.count_append, List.count_singleton_self, ih, List.map_cons, List.sum_cons,
      List.length_cons]
    omega

end Ended

namespace Plan

/-! ## Names on the lines of a node -/

def principalNames (p : Option Principal) : List String := (p.bind (·.name)).toList

def entryNames : Entry → List String
  | .symlink target => [target]
  | _ => []

def specNames (spec : EntrySpec) : List String :=
  principalNames spec.permissions.owner ++ principalNames spec.permissions.group ++ entryNames spec.entry

/-- The names that the lines of a node hold: its path, its owner and its group, the target of a link, the attributes. -/
def names (n : Node) : List String :=
  n.path.text :: n.state.entry?.toList.flatMap specNames ++ n.xattrs.keys

/-- The newlines in the names of a node. -/
def breaks (n : Node) : Nat := ((names n).map newlines).sum

theorem newlines_principalText (p : Option Principal) :
    newlines (principalText p) = ((principalNames p).map newlines).sum := by
  match p with
  | none => decide
  | some ⟨some name, some id⟩ =>
    simp (disch := decide) [principalText, principalNames, Principal.text, newlines_of_not_mem]
  | some ⟨some name, none⟩ => simp [principalText, principalNames, Principal.text]
  | some ⟨none, some id⟩ => simp [principalText, principalNames, Principal.text]
  | some ⟨none, none⟩ => decide

theorem newlines_modeText (spec : EntrySpec) : newlines (modeText spec) = 0 := by
  rw [modeText, newlines_append, newlines_mode_text]
  split <;> decide

theorem newlines_detail (implicit : Bool) (entry : Entry) :
    newlines (detail implicit entry) = ((entryNames entry).map newlines).sum := by
  cases entry with
  | directory => cases implicit <;> decide
  | file content => simp (disch := decide) [detail, entryNames, newlines_of_not_mem]
  | symlink target => simp (disch := decide) [detail, entryNames, newlines_of_not_mem]
  | fifo => rfl
  | device deviceClass major minor =>
    cases deviceClass <;>
      simp (disch := decide) [detail, entryNames, newlines_of_not_mem]

theorem newlines_line (n : Node) :
    newlines (line n) = newlines n.path.text + ((n.state.entry?.toList.flatMap specNames).map newlines).sum := by
  rw [line]
  split
  · rename_i hentry
    have hpath : toString n.path = n.path.text := rfl
    simp (disch := decide) [hentry, hpath, newlines_of_not_mem]
  · rename_i spec hentry
    simp (disch := decide) [hentry, specNames, newlines_principalText, newlines_modeText, newlines_detail,
      newlines_of_not_mem]
    omega

theorem newlines_attributeLine (name : String) (value : Octets) :
    newlines (attributeLine name value) = newlines name := by
  simp (disch := decide) [attributeLine, newlines_of_not_mem]

/-- The lines of a node have the newlines of its names and no others. -/
theorem sum_newlines_lines (n : Node) : ((lines n).map newlines).sum = breaks n := by
  simp only [lines, breaks, names, List.map_cons, List.cons_append, List.map_append, List.sum_cons, List.sum_append,
    newlines_line, List.map_map, SortedMap.keys, Nat.add_assoc, Function.comp_def, newlines_attributeLine]

theorem breaks_eq_zero_iff {n : Node} : breaks n = 0 ↔ ∀ name ∈ names n, '\n' ∉ name.toList := by
  simp only [breaks, List.sum_eq_zero_iff_forall_eq_nat, List.forall_mem_map, newlines_eq_zero_iff]

/-! ## Indentation -/

/-- What the line of an attribute starts with, and that of a node does not. -/
def indent : Octets := utf8 "    "

theorem indent_prefix_attributeLine (name : String) (value : Octets) : indent <+: utf8 (attributeLine name value) := by
  have hstart : utf8 "    xattr " = indent ++ utf8 "xattr " := by decide
  have hline : attributeLine name value = "    xattr " ++ name ++ " (" ++ toString value.length ++ " bytes)" := rfl
  simp only [hline, utf8_append, hstart, List.append_assoc]
  exact List.prefix_append _ _

theorem not_indent_prefix_line (n : Node) : ¬indent <+: utf8 (line n) := by
  -- A line begins with one of a few fixed words, and none of these begins with a blank.
  have hstart : ∃ start rest, line n = start ++ rest ∧ utf8 start ≠ [] ∧ (utf8 start).head? ≠ indent.head? := by
    rw [line]
    split
    · exact ⟨"remove ", _, rfl, by decide, by decide⟩
    · rename_i spec _
      refine ⟨spec.kind.text, _, by simp only [Text.widened, String.append_assoc]; rfl, ?_⟩
      cases spec.kind <;> decide
  obtain ⟨start, rest, hline, hne, hhead⟩ := hstart
  rintro ⟨more, hmore⟩
  have heq := congrArg List.head? hmore
  rw [hline, utf8_append, List.head?_append_of_ne_nil _ hne, List.head?_append_of_ne_nil _ (by decide)] at heq
  exact hhead heq.symm

theorem filter_lines (n : Node) :
    ((lines n).map utf8).filter (fun octets => ¬indent <+: octets) = [utf8 (line n)] := by
  rw [lines, List.map_cons, List.filter_cons_of_pos (by simpa using not_indent_prefix_line n)]
  refine congrArg (utf8 (line n) :: ·) (List.filter_eq_nil_iff.2 ?_)
  simp only [List.forall_mem_map, indent_prefix_attributeLine]
  simp

/-! ## The statement -/

/-- What the octets of a plan are, line by line. -/
structure IsListing (s : Sequence) (octets : Octets) : Prop where
  /-- There is a newline for each node and for each attribute, and there are those of the names. -/
  count : octets.count (octet '\n') =
    s.nodes.length + (s.nodes.map (·.xattrs.size)).sum + (s.nodes.map breaks).sum
  /-- The lines are those of each node in turn, and nothing else, exactly when the names have no newlines. -/
  lines_iff : pieces (octet '\n') octets = (s.nodes.flatMap lines).map utf8 ++ [[]] ↔
    ∀ n ∈ s.nodes, ∀ name ∈ names n, '\n' ∉ name.toList
  /-- In that case there is one line for each node that is not indented. -/
  unindented : (∀ n ∈ s.nodes, ∀ name ∈ names n, '\n' ∉ name.toList) →
    (pieces (octet '\n') octets).dropLast.filter (fun line => ¬indent <+: line) = s.nodes.map fun n => utf8 (line n)
  /-- Beneath the line of a node are its attributes in the order of their names. -/
  ascending : ∀ n ∈ s.nodes, n.xattrs.keys.Pairwise fun a b => byteOrder a b = .lt

theorem octets_pieces_text (s : Sequence) : ((Backend.plan .text).pieces s).octets =
    ((s.nodes.flatMap lines).map utf8).flatMap (· ++ [octet '\n']) := by
  have hended (l : String) : utf8 (l ++ "\n") = utf8 l ++ [octet '\n'] := utf8_append l "\n"
  rw [Backend.pieces, Pieces.octets_flatMap, List.flatMap_map, List.flatMap_assoc]
  simp only [Pieces.octets, List.flatMap_map, hended]

theorem newline_not_mem_lines_iff {nodes : List Node} :
    (∀ line ∈ (nodes.flatMap lines).map utf8, octet '\n' ∉ line) ↔
      ∀ n ∈ nodes, ∀ name ∈ names n, '\n' ∉ name.toList := by
  have hoctets (l : String) : octet '\n' ∉ utf8 l ↔ newlines l = 0 := by
    rw [newlines, ← count_utf8 (by decide), List.count_eq_zero]
  simp only [List.forall_mem_map, List.forall_mem_flatMap, hoctets, ← breaks_eq_zero_iff, ← sum_newlines_lines,
    List.sum_eq_zero_iff_forall_eq_nat]

/-- There is one newline behind each line of a node, and there are those of its names. -/
theorem count_lines (n : Node) : (((lines n).map utf8).flatMap (· ++ [octet '\n'])).count (octet '\n') =
    1 + n.xattrs.size + breaks n := by
  have hutf8 : (·.count (octet '\n')) ∘ utf8 = newlines := funext (count_utf8 (by decide))
  rw [count_flatMap_concat, List.map_map, hutf8, sum_newlines_lines, List.length_map, lines, List.length_cons,
    List.length_map, SortedMap.size]
  omega

/-- Every sequence has a plan, and it is a listing of the nodes. -/
theorem bytes_isListing (s : Sequence) : ∃ octets, (Backend.plan .text).bytes s = .ok octets ∧ IsListing s octets := by
  refine ⟨_, rfl, ?_⟩
  rw [octets_pieces_text]
  have hsplit : pieces (octet '\n') (((s.nodes.flatMap lines).map utf8).flatMap (· ++ [octet '\n'])) =
      (s.nodes.flatMap lines).map utf8 ++ [[]] ↔ _ := pieces_flatMap_iff
  refine ⟨?_, hsplit.trans newline_not_mem_lines_iff, fun hplain => ?_, fun n _ => n.xattrs.keys_pairwise⟩
  · rw [List.map_flatMap, List.flatMap_assoc, List.count_flatMap]
    simp only [Function.comp_def, count_lines, List.sum_map_add, List.map_const', List.sum_replicate, smul_eq_mul,
      mul_one]
  · rw [hsplit.2 (newline_not_mem_lines_iff.2 hplain), List.dropLast_concat, List.map_flatMap,
      List.filter_flatMap]
    simp only [filter_lines]
    exact List.map_eq_flatMap.symm

/-- A link whose target goes on like a line of its own. -/
def forged : List Declaration :=
  [⟨⟨["alias"], by decide⟩, .entry (.bare (.symlink "b\nremove /etc")), ⟨"site", 0⟩, [], by decide, by decide⟩]

/-- The plan of two nodes without attributes has three lines, and the last one is that of a removal. -/
theorem forged_splits : ∃ s octets, resolve .lenient forged = .ok s ∧ (Backend.plan .text).bytes s = .ok octets ∧
    s.nodes.length = 2 ∧ (∀ n ∈ s.nodes, n.xattrs.size = 0 ∧ n.state ≠ .absent) ∧ octets.count (octet '\n') = 3 ∧
    utf8 "remove /etc" ∈ pieces (octet '\n') octets := by
  have hrun : (resolve .lenient forged).toOption.map (fun s =>
      (s.nodes.length, s.nodes.all fun n => n.xattrs.size = 0 ∧ n.state ≠ .absent, s.nodes.flatMap lines)) =
      some (2, true,
        ["directory    0755* -:- / (implicit)", "symlink      0777* -:- /alias -> b\nremove /etc"]) := by cbv
  cases hresolve : resolve .lenient forged with
  | error e => rw [hresolve] at hrun; cases hrun
  | ok s =>
    rw [hresolve] at hrun
    obtain ⟨hlength, hnodes, hlines⟩ : _ ∧ _ ∧ _ := by simpa only [Prod.mk.injEq] using Option.some.inj hrun
    refine ⟨s, _, rfl, rfl, hlength, fun n hn => of_decide_eq_true (List.all_eq_true.1 hnodes n hn), ?_, ?_⟩ <;>
      rw [octets_pieces_text, hlines] <;> decide

end Plan

end Provision
