import Mathlib.Data.List.Infix
import Provision.Proofs.Spelling

/-! # Above and beneath

The paths above another are told from segments, from texts that are cut at their last separator, and from texts that go
on with a separator. All three say the same.

* `segments_ancestors` — the paths above a path are the proper prefixes of its segments, each once, the longest first.
* `IsCut`, `parent?_eq_some_iff` — the containing directory is what stands before the last separator.
* `isBeneath_agrees` — the statement.
-/

namespace Provision.TargetPath

/-! ## Prefixes -/

theorem inits_concat {α : Type} (front : List α) (last : α) :
    (front ++ [last]).inits = front.inits ++ [front ++ [last]] := by
  simp [List.inits_append]

theorem inits_eq_concat {α : Type} (l : List α) : l.inits = l.inits.dropLast ++ [l] := by
  cases l using List.reverseRecOn with
  | nil => rfl
  | append_singleton front last => rw [inits_concat, List.dropLast_concat]

theorem segments_ancestors (p : TargetPath) : p.ancestors.map segments = p.segments.inits.dropLast.reverse := by
  induction p using ancestors.induct with
  | case1 p h =>
    rw [parent?_eq_none_iff.1 h, ancestors_root]
    rfl
  | case2 p parent h ih =>
    obtain ⟨hne, hparent⟩ := segments_of_parent? h
    -- The prefixes that leave out the last segment are those of the directory, itself among them.
    have hinits : p.segments.inits.dropLast = parent.segments.inits := by
      rw [← List.dropLast_concat_getLast hne, inits_concat, List.dropLast_concat, hparent]
    rw [ancestors_of_parent? h, List.map_cons, ih, hinits, inits_eq_concat parent.segments, List.dropLast_concat,
      List.reverse_concat]

theorem getLast?_ancestors (p : TargetPath) : p.ancestors.getLast? = if p = root then none else some root := by
  induction p using ancestors.induct with
  | case1 p h =>
    rw [parent?_eq_none_iff.1 h, ancestors_root]
    rfl
  | case2 p parent h ih =>
    have hne : p ≠ root := fun heq => (segments_of_parent? h).1 (congrArg segments heq)
    rw [ancestors_of_parent? h, if_neg hne, List.getLast?_cons, ih]
    split
    · rename_i hroot
      rw [hroot]
      rfl
    · rfl

/-! ## Cuts -/

/-- Whether a text is what stands before the last separator of another, or the separator alone if nothing does. -/
def IsCut (text above : String) : Prop :=
  ∃ front name, text = front ++ "/" ++ name ∧ '/' ∉ name.toList ∧ above = if front = "" then "/" else front

theorem eq_nil_of_sep_cons_eq {α : Type} {sep : α} {b c b' : List α} (hb : sep ∉ b)
    (h : sep :: b = c ++ sep :: b') : c = [] := by
  cases c with
  | nil => rfl
  | cons x c =>
    obtain ⟨-, rfl⟩ := List.cons.inj h
    exact absurd (by simp) hb

theorem eq_of_append_sep_eq {α : Type} {sep : α} {a b a' b' : List α} (hb : sep ∉ b) (hb' : sep ∉ b')
    (h : a ++ sep :: b = a' ++ sep :: b') : a = a' := by
  obtain ⟨c, rfl, hc⟩ | ⟨c, rfl, hc⟩ := List.append_eq_append_iff.1 h
  · rw [eq_nil_of_sep_cons_eq hb hc, List.append_nil]
  · rw [eq_nil_of_sep_cons_eq hb' hc, List.append_nil]

/-- A text is cut in one place only. -/
theorem IsCut.unique {text above above' : String} (h : IsCut text above) (h' : IsCut text above') : above = above' := by
  obtain ⟨front, name, rfl, hname, rfl⟩ := h
  obtain ⟨front', name', heq, hname', rfl⟩ := h'
  have hfront : front = front' := by
    refine String.toList_inj.1 (eq_of_append_sep_eq hname hname' ?_)
    simpa using congrArg String.toList heq
  rw [hfront]

theorem isCut_text {p parent : TargetPath} (h : p.parent? = some parent) : IsCut p.text parent.text := by
  obtain ⟨hne, hparent⟩ := segments_of_parent? h
  obtain ⟨front, name, hsegments⟩ : ∃ front name, p.segments = front ++ [name] :=
    ⟨_, _, (List.dropLast_concat_getLast hne).symm⟩
  have hname : '/' ∉ name.toList := (p.valid name (by simp [hsegments])).2.2.2.1
  rw [hsegments, List.dropLast_concat] at hparent
  refine ⟨spelled front, name, ?_, hname, ?_⟩
  · rw [text, if_neg hne, hsegments]
    simp [spelled, String.append_assoc]
  · -- Nothing stands before the separator where the directory is the root, and nowhere else.
    rw [text, hparent]
    cases front with
    | nil => rfl
    | cons s rest => simp [spelled]

/-- The containing directory, of any path but the root, is where the text of the path is cut. -/
theorem parent?_eq_some_iff {p parent : TargetPath} :
    p.parent? = some parent ↔ p ≠ root ∧ IsCut p.text parent.text := by
  constructor
  · intro h
    exact ⟨fun heq => (segments_of_parent? h).1 (congrArg segments heq), isCut_text h⟩
  · rintro ⟨hne, hcut⟩
    obtain ⟨q, hq⟩ := Option.ne_none_iff_exists'.1 (mt parent?_eq_none_iff.1 hne)
    rw [hq, text_injective ((isCut_text hq).unique hcut)]

/-! ## Agreement -/

/-- A path is beneath another when that is among the paths above it, and when the names of the other are a proper prefix
    of its own. The paths above it are all those, the longest first, down to the root; each is in normal spelling, and
    comes before it in the order of octets. -/
theorem isBeneath_agrees (p q : TargetPath) :
    (p.isBeneath q ↔ q ∈ p.ancestors) ∧
    (q ∈ p.ancestors ↔ namesIn q.text <+: namesIn p.text ∧ namesIn q.text ≠ namesIn p.text) ∧
    p.ancestors.map (namesIn ·.text) = (namesIn p.text).inits.dropLast.reverse ∧ p.ancestors.Nodup ∧
    p.ancestors.getLast? = (if p = root then none else some root) ∧
    (∀ parent, p.parent? = some parent ↔ p ≠ root ∧ IsCut p.text parent.text) ∧
    (∀ above ∈ p.ancestors, IsNormal above.text ∧ parse above.text = .ok above) ∧
    (p.isBeneath q → order q p = .lt ∧ byteOrder q.text p.text = .lt) := by
  simp only [namesIn_text]
  refine ⟨isBeneath_iff, ?_, segments_ancestors p, ancestors_nodup p, getLast?_ancestors p, fun _ => parent?_eq_some_iff,
    fun above _ => ⟨isNormal_text above, parse_text above⟩, fun h => ?_⟩
  · rw [mem_ancestors_iff]
    exact and_congr_right fun _ => not_congr ⟨congrArg segments, ext⟩
  · have horder := order_lt_of_mem_ancestors (isBeneath_iff.1 h)
    exact ⟨horder, order_eq q p ▸ horder⟩

def attic : TargetPath := ⟨["attic"], by decide⟩

def stowed : TargetPath := ⟨["attic", "box", "lid"], by decide⟩

/-- What is in the attic comes after it, and the attic is above it in its normal spelling. -/
theorem stowed_agrees : stowed.isBeneath attic ∧ attic ∈ stowed.ancestors ∧ parse attic.text = .ok attic ∧
    byteOrder attic.text stowed.text = .lt ∧ IsCut attic.text root.text := by
  have hbeneath : stowed.isBeneath attic = true := by decide
  obtain ⟨habove, -, -, -, -, -, hnormal, horder⟩ := isBeneath_agrees stowed attic
  have hmem := habove.1 hbeneath
  obtain ⟨-, -, -, -, -, hcut, -, -⟩ := isBeneath_agrees attic root
  exact ⟨hbeneath, hmem, (hnormal attic hmem).2, (horder hbeneath).2, ((hcut root).1 (by decide)).2⟩

/-- A name that goes on from another is not in it. -/
example : TargetPath.isBeneath ⟨["attic-key"], by decide⟩ attic = false := by decide

end Provision.TargetPath
