import Provision.Octets
import Provision.Separated

/-! # Target paths

An absolute, normalised path on the target machine, kept as the list of its segments. It is the
identity of everything that is declared.

* `TargetPath.parse` — the path that a text spells, or the fault in it.
* `TargetPath.text` — the one normal spelling; `text_injective` — no two paths share it.
* `TargetPath.order` — paths compared by the octets of their texts.
* `parent?`, `ancestors`, `isBeneath` — the hierarchy.
-/

namespace Provision

/-! ## Segments -/

/-- What may stand between two separators of a normal path: a name that is not empty, names
    neither the directory itself nor the one above, and holds neither separator nor NUL. -/
def IsSegment (s : String) : Prop :=
  s ≠ "" ∧ s ≠ "." ∧ s ≠ ".." ∧ '/' ∉ s.toList ∧ '\x00' ∉ s.toList

instance (s : String) : Decidable (IsSegment s) := by
  unfold IsSegment; infer_instance

structure TargetPath where
  /-- The names from the root down. -/
  segments : List String
  /-- Each of them is a proper name. -/
  valid : ∀ s ∈ segments, IsSegment s
  deriving DecidableEq

/-- Why a text spells no target path. -/
inductive PathFault where
  /-- There is no text. -/
  | empty
  /-- The text does not start at the root. -/
  | relative
  /-- The text holds a NUL. -/
  | nul
  /-- A segment of the text leads upwards. -/
  | upwards
  deriving DecidableEq, Repr

def PathFault.message : PathFault → String
  | .empty => "path is empty"
  | .relative => "path must be absolute"
  | .nul => "path contains a NUL byte"
  | .upwards => "path must not contain '..' segments"

namespace TargetPath

def root : TargetPath := ⟨[], by simp⟩

instance : Inhabited TargetPath := ⟨root⟩

/-! ## Spelling -/

/-- The normal spelling: each segment after a separator, or a lone separator for the root. -/
def text (p : TargetPath) : String :=
  if p.segments = [] then "/" else String.join (p.segments.map ("/" ++ ·))

instance : ToString TargetPath := ⟨text⟩

/-- The segments that a raw spelling names: empty ones and `.` say nothing. -/
def rawSegments (raw : String) : List String :=
  (pieces '/' raw.toList).map String.ofList |>.filter fun s => s ≠ "" ∧ s ≠ "."

theorem isSegment_of_mem_rawSegments {raw s : String} (hnul : '\x00' ∉ raw.toList)
    (hup : ".." ∉ rawSegments raw) (h : s ∈ rawSegments raw) : IsSegment s := by
  have hs := h
  simp only [rawSegments, List.mem_filter, List.mem_map, decide_eq_true_eq] at hs
  obtain ⟨⟨piece, hpiece, rfl⟩, hne, hdot⟩ := hs
  refine ⟨hne, hdot, fun e => hup (e ▸ h), ?_, ?_⟩
  · simpa using sep_not_mem_pieces hpiece
  · intro hm
    exact hnul (mem_of_mem_pieces hpiece (by simpa using hm))

/-- The path that a text spells. Repeated and trailing separators and `.` segments are dropped;
    of several faults the first of `PathFault` in order is reported. -/
def parse (raw : String) : Except PathFault TargetPath :=
  if raw.toList = [] then .error .empty
  else if raw.toList.head? ≠ some '/' then .error .relative
  else if hnul : '\x00' ∈ raw.toList then .error .nul
  else if hup : ".." ∈ rawSegments raw then .error .upwards
  else .ok ⟨rawSegments raw, fun _ h => isSegment_of_mem_rawSegments hnul hup h⟩

/-! ## Hierarchy -/

def isRoot (p : TargetPath) : Bool := p.segments.isEmpty

def parent? (p : TargetPath) : Option TargetPath :=
  if p.segments = [] then none
  else some ⟨p.segments.dropLast, fun s h => p.valid s ((List.dropLast_sublist p.segments).subset h)⟩

theorem parent?_segments_length {p q : TargetPath} (h : p.parent? = some q) :
    q.segments.length < p.segments.length := by
  unfold parent? at h
  split at h
  · cases h
  · rename_i hne
    cases h
    have := List.length_pos_iff.2 hne
    simp only [List.length_dropLast]
    omega

/-- All proper ancestors, nearest first, the root last. -/
def ancestors (p : TargetPath) : List TargetPath :=
  match _h : p.parent? with
  | none => []
  | some q => q :: q.ancestors
termination_by p.segments.length
decreasing_by exact parent?_segments_length _h

/-- Whether `p` lies strictly beneath `q`: its text goes on from `q`'s with a separator. -/
def isBeneath (p q : TargetPath) : Bool :=
  p ≠ q && (q.isRoot || (q.text.toList ++ ['/']).isPrefixOf p.text.toList)

/-- The last segment; empty for the root. -/
def fileName (p : TargetPath) : String := p.segments.getLastD ""

/-- The path as seen from the root: without the leading separator, and `.` for the root itself. -/
def relative (p : TargetPath) : String :=
  if p.segments = [] then "." else String.intercalate "/" p.segments

/-! ## One spelling per path -/

theorem toList_join_segments (segments : List String) :
    (String.join (segments.map ("/" ++ ·))).toList = segments.flatMap fun s => '/' :: s.toList := by
  simp [String.toList_join, List.flatMap_map]

theorem pieces_join_segments {segments : List String} (hne : segments ≠ [])
    (h : ∀ s ∈ segments, '/' ∉ s.toList) :
    pieces '/' (segments.flatMap fun s => '/' :: s.toList) = [] :: segments.map String.toList := by
  induction segments with
  | nil => exact absurd rfl hne
  | cons s rest ih =>
    have hs : '/' ∉ s.toList := h s List.mem_cons_self
    cases rest with
    | nil => simp [pieces, pieces_of_not_mem hs]
    | cons s' rest =>
      have ih := ih (by simp) fun t ht => h t (List.mem_cons_of_mem _ ht)
      simp only [List.flatMap_cons, List.cons_append, pieces, if_true] at ih ⊢
      rw [pieces_append_sep hs]
      simpa using ih

/-- Reading the normal spelling back gives the segments. -/
theorem rawSegments_text (p : TargetPath) : rawSegments p.text = p.segments := by
  unfold text
  split
  · rename_i h
    rw [h]; decide
  · rename_i h
    unfold rawSegments
    rw [toList_join_segments, pieces_join_segments h fun s hs => (p.valid s hs).2.2.2.1]
    simp only [List.map_cons, List.map_map, List.filter_cons]
    have : (String.ofList ∘ String.toList) = id := by funext s; simp
    simp only [this, List.map_id, ne_eq, not_true, decide_eq_true_eq, false_and, if_false,
      List.filter_eq_self, String.ofList_nil]
    exact fun s hs => ⟨(p.valid s hs).1, (p.valid s hs).2.1⟩

theorem text_injective {p q : TargetPath} (h : p.text = q.text) : p = q := by
  have hs : p.segments = q.segments := by rw [← rawSegments_text p, h, rawSegments_text q]
  cases p; cases q; cases hs; rfl

/-! ## Order -/

/-- The spelling of a path from the root down, but for that of the root. -/
def spelled (segments : List String) : String := String.join (segments.map ("/" ++ ·))

/-- Spellings compared by their octets. Segments in common are left out: spellings differ only after them,
    and the end of one comes before any separator. -/
def compareSpelled : List String → List String → Ordering
  | [], [] => .eq
  | [], _ :: _ => .lt
  | _ :: _, [] => .gt
  | s :: p, t :: q => if s = t then compareSpelled p q else byteOrder (spelled (s :: p)) (spelled (t :: q))

/-- Paths compared by the octets of their texts, so that a directory precedes its contents but a
    name such as `a-b` stands between `a` and what is in it. -/
def order (p q : TargetPath) : Ordering := compareSpelled p.segments q.segments

theorem spelled_cons (s : String) (p : List String) : spelled (s :: p) = "/" ++ s ++ spelled p := by
  simp [spelled]

theorem utf8_spelled_cons (s : String) (p : List String) :
    utf8 (spelled (s :: p)) = 0x2F :: (utf8 s ++ utf8 (spelled p)) := by
  rw [spelled_cons, utf8_append, utf8_append]
  rfl

theorem compareSpelled_eq (p q : List String) :
    compareSpelled p q = byteOrder (spelled p) (spelled q) := by
  fun_induction compareSpelled p q with
  | case1 => rfl
  | case2 t q => simp only [byteOrder, utf8_spelled_cons]; rfl
  | case3 s p => simp only [byteOrder, utf8_spelled_cons]; rfl
  | case4 p q s ih =>
    rw [ih, byteOrder, byteOrder, spelled_cons, spelled_cons, utf8_append, utf8_append (_ ++ _),
      compare_append_left]
  | case5 => rfl

theorem byteOrder_separator_spelled {s : String} (h : s ≠ "") (p : List String) :
    byteOrder "/" (spelled (s :: p)) = .lt := by
  obtain ⟨b, rest, hs⟩ := List.exists_cons_of_ne_nil (utf8_ne_nil h)
  rw [byteOrder, utf8_spelled_cons, hs]
  rfl

/-- The order is that of the octets of the texts. -/
theorem order_eq (p q : TargetPath) : order p q = byteOrder p.text q.text := by
  obtain ⟨p, hp⟩ := p
  obtain ⟨q, hq⟩ := q
  simp only [order, text]
  cases p with
  | nil => cases q with
    | nil => rfl
    | cons t q => exact (byteOrder_separator_spelled (hq t List.mem_cons_self).1 q).symm
  | cons s p => cases q with
    | nil =>
      have h := byteOrder_separator_spelled (hp s List.mem_cons_self).1 p
      exact (Std.OrientedCmp.gt_iff_lt.2 h).symm
    | cons t q => exact compareSpelled_eq (s :: p) (t :: q)

instance : Std.TransCmp order where
  eq_swap {p q} := by
    rw [order_eq, order_eq]
    exact Std.OrientedCmp.eq_swap
  isLE_trans {p q r} := by
    simp only [order_eq]
    exact Std.TransCmp.isLE_trans

instance : Std.LawfulEqCmp order where
  compare_self {p} := by
    rw [order_eq]
    exact Std.ReflCmp.compare_self
  eq_of_compare {p q} h := by
    rw [order_eq] at h
    exact text_injective (Std.LawfulEqCmp.eq_of_compare h)

end TargetPath

end Provision
