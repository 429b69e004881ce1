import Mathlib.Tactic.SplitIfs
import Provision.Proofs.Hierarchy

/-! # Spellings of paths

A text spells the path of the names in it. What stands between separators is what the standard library's `String.split`
finds there, so that nothing said here about a text rests on how it is taken apart while it is read.

* `IsSpelling` — whether a text spells a path; `isSpelling_iff` — what a text must be for that.
* `betweenSeparators`, `namesIn` — what stands between the separators of a text, and the names among that.
* `IsNormal` — the texts that are paths in their normal spelling; `isNormal_text`.
* `parse_text` — the normal spelling is read back; `parse_normalizes` — the statement.
-/

namespace Provision

/-- Whether a text spells a target path. -/
def IsSpelling (raw : String) : Prop := ∃ path, TargetPath.parse raw = .ok path

theorem isSpelling_iff {raw : String} : IsSpelling raw ↔
    raw.toList.head? = some '/' ∧ '\x00' ∉ raw.toList ∧ ".." ∉ TargetPath.rawSegments raw := by
  rw [IsSpelling, TargetPath.parse]
  by_cases hempty : raw.toList = []
  · simp [hempty]
  · by_cases hhead : raw.toList.head? = some '/'
    · by_cases hnul : '\x00' ∈ raw.toList
      · simp [hempty, hhead, hnul]
      · by_cases hup : ".." ∈ TargetPath.rawSegments raw <;> simp [hempty, hhead, hnul, hup]
    · simp [hempty, hhead]

namespace TargetPath

/-! ## Between separators -/

/-- What stands between the separators of a text, from the first to the last. -/
def betweenSeparators (raw : String) : List String := (raw.split '/').toList.map String.Slice.copy

/-- The names in a text: what stands between its separators, unless that says nothing. -/
def namesIn (raw : String) : List String := (betweenSeparators raw).filter fun s => s ≠ "" ∧ s ≠ "."

theorem betweenSeparators_eq (raw : String) :
    betweenSeparators raw = (pieces '/' raw.toList).map String.ofList := by
  rw [betweenSeparators, String.toList_split_char, pieces_eq_splitOn]

theorem rawSegments_eq (raw : String) : rawSegments raw = namesIn raw := by
  rw [rawSegments, namesIn, betweenSeparators_eq]

/-- The names in the text of a path are its segments. -/
theorem namesIn_text (p : TargetPath) : namesIn p.text = p.segments := by
  rw [← rawSegments_eq, rawSegments_text]

theorem up_mem_namesIn_iff {raw : String} : ".." ∈ namesIn raw ↔ ".." ∈ betweenSeparators raw := by
  simp [namesIn]

/-! ## Normal spellings -/

/-- Whether a text is the root, or proper names with a separator before each of them. -/
def IsNormal (text : String) : Prop :=
  text = "/" ∨ ∃ names ≠ [], (∀ name ∈ names, name ≠ "" ∧ name ≠ "." ∧ name ≠ ".." ∧ '/' ∉ name.toList) ∧
    text = String.join (names.map ("/" ++ ·))

theorem isNormal_text (p : TargetPath) : IsNormal p.text := by
  rw [text]
  split
  · exact .inl rfl
  · rename_i hne
    refine .inr ⟨p.segments, hne, fun name hname => ?_, rfl⟩
    obtain ⟨hempty, hself, hup, hseparator, -⟩ := p.valid name hname
    exact ⟨hempty, hself, hup, hseparator⟩

/-- The normal spelling joins the segments by separators, after one more. -/
theorem text_eq (p : TargetPath) : p.text = "/" ++ "/".intercalate p.segments := by
  rw [text]
  split
  · rename_i hroot
    rw [hroot]
    rfl
  · rename_i hne
    generalize p.segments = segments at hne
    induction segments with
    | nil => exact absurd rfl hne
    | cons s rest ih =>
      cases rest with
      | nil => simp
      | cons s' rest =>
        rw [List.map_cons, String.join_cons, ih (List.cons_ne_nil s' rest), String.intercalate_cons_cons]
        simp [String.append_assoc]

/-- Segments brought together hold nothing but the separator and their own characters. -/
theorem not_mem_intercalate {c : Char} (hc : c ≠ '/') {segments : List String}
    (h : ∀ s ∈ segments, c ∉ s.toList) : c ∉ (String.intercalate "/" segments).toList := by
  induction segments with
  | nil => simp
  | cons s rest ih =>
    have hs := h s List.mem_cons_self
    have hrest := ih fun s hs => h s (List.mem_cons_of_mem _ hs)
    by_cases hnil : rest = []
    · rw [hnil, String.intercalate_singleton]
      exact hs
    · rw [String.intercalate_cons_of_ne_nil hnil]
      simp only [String.toList_append, List.mem_append, not_or]
      exact ⟨⟨hs, by simpa using hc⟩, hrest⟩

theorem isSpelling_text (p : TargetPath) : IsSpelling p.text := by
  rw [isSpelling_iff, rawSegments_text, text_eq, String.toList_append]
  refine ⟨rfl, fun hnul => ?_, fun hup => (p.valid _ hup).2.2.1 rfl⟩
  rcases List.mem_append.1 hnul with hnul | hnul
  · exact absurd hnul (by decide)
  · exact not_mem_intercalate (by decide) (fun s hs => (p.valid s hs).2.2.2.2) hnul

/-! ## Parsing -/

/-- A text that spells a path spells the one whose segments are its names. -/
theorem segments_of_parse {raw : String} {p : TargetPath} (h : parse raw = .ok p) : p.segments = namesIn raw := by
  rw [← rawSegments_eq]
  unfold parse at h
  split_ifs at h
  cases h
  rfl

/-- The normal spelling is read back as the path. -/
theorem parse_text (p : TargetPath) : parse p.text = .ok p := by
  obtain ⟨q, hq⟩ := isSpelling_text p
  have hsegments : q.segments = p.segments := by rw [segments_of_parse hq, namesIn_text]
  rw [hq, ext hsegments]

/-- A text spells a path when it begins with a separator, has no NUL and nowhere leads up. Its normal spelling is then a
    separator and the names in the text, joined by separators; it is read back as itself, and it is that of another text
    when the two have the same names. -/
theorem parse_normalizes (raw : String) :
    (IsSpelling raw ↔ raw.startsWith '/' ∧ ¬raw.contains '\x00' ∧ ".." ∉ betweenSeparators raw) ∧
    ∀ p, parse raw = .ok p →
      p.text = "/" ++ "/".intercalate (namesIn raw) ∧ IsNormal p.text ∧ parse p.text = .ok p ∧
      ∀ raw' p', parse raw' = .ok p' → (p.text = p'.text ↔ namesIn raw = namesIn raw') := by
  constructor
  · rw [isSpelling_iff, rawSegments_eq, up_mem_namesIn_iff, String.startsWith_char_eq_head?, String.contains_char_eq,
      beq_iff_eq, decide_eq_true_eq]
  · intro p hp
    have hsegments := segments_of_parse hp
    refine ⟨hsegments ▸ text_eq p, isNormal_text p, parse_text p, fun raw' p' hp' => ?_⟩
    rw [← hsegments, ← segments_of_parse hp']
    exact ⟨fun htext => congrArg segments (text_injective htext), fun hsame => congrArg text (ext hsame)⟩

/-- Separators to spare, names that say nothing, and names of dots. -/
def winding : String := "//w/.//...//..z/"

/-- The text spells a path, and so does another one with the same names. -/
theorem winding_normalizes : ∃ p p', parse winding = .ok p ∧ parse "/w/.../..z/." = .ok p' ∧ p.text = "/w/.../..z" ∧
    parse p.text = .ok p ∧ p.text = p'.text := by
  have hnames : namesIn winding = ["w", "...", "..z"] := by
    rw [← rawSegments_eq]
    decide
  have hnames' : namesIn "/w/.../..z/." = ["w", "...", "..z"] := by
    rw [← rawSegments_eq]
    decide
  obtain ⟨p, hp⟩ : IsSpelling winding := isSpelling_iff.2 (by decide)
  obtain ⟨p', hp'⟩ : IsSpelling "/w/.../..z/." := isSpelling_iff.2 (by decide)
  obtain ⟨htext, -, hback, hsame⟩ := (parse_normalizes winding).2 p hp
  refine ⟨p, p', hp, hp', ?_, hback, (hsame _ p' hp').2 (hnames.trans hnames'.symm)⟩
  rw [htext, hnames]
  decide

end TargetPath

end Provision
