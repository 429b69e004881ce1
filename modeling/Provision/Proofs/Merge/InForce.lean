import Mathlib.Data.List.DropRight
import Provision.Proofs.Hierarchy
import Provision.Merge.Graph

/-! # Declarations in force

What a merge makes of a path is a matter of the declarations at that path alone, and of those only the
ones that no removal above the path has swept away.

* `inForce` — the declarations at a path after the last removal above it.
* `fromRemoval` — of those, the ones from the last removal at the path itself on.
* `lastOf` — the last value that some of the declarations give; `lastSet` — for each field of permissions.
* `mem_fromRemoval_inForce_append_self` — made twice, the same declarations count at a path.
-/

namespace Provision

namespace Declaration

/-- Whether nothing may be at the path. -/
def IsRemoval (d : Declaration) : Prop := d.resource = .absent

instance (d : Declaration) : Decidable d.IsRemoval := inferInstanceAs (Decidable (_ = _))

def entry? (d : Declaration) : Option EntrySpec :=
  match d.resource with
  | .entry spec => some spec
  | _ => none

def permissions? (d : Declaration) : Option Permissions :=
  match d.resource with
  | .permissions permissions => some permissions
  | _ => none

/-- The value that is declared for an attribute. -/
def attribute? (name : String) (d : Declaration) : Option Octets :=
  match d.resource with
  | .xattr xattr => if xattr.name = name then some xattr.value else none
  | _ => none

end Declaration

/-! ## Last values -/

/-- The last of the values that some declarations give. -/
def lastOf {α : Type} (value? : Declaration → Option α) (ds : List Declaration) : Option α :=
  (ds.filterMap value?).getLast?

@[simp]
theorem lastOf_nil {α : Type} (value? : Declaration → Option α) : lastOf value? [] = none := rfl

/-- A later value takes the place of all earlier ones. -/
theorem lastOf_concat {α : Type} (value? : Declaration → Option α) (ds : List Declaration)
    (d : Declaration) : lastOf value? (ds ++ [d]) = (value? d).or (lastOf value? ds) := by
  cases h : value? d <;> simp [lastOf, List.filterMap_append, h]

theorem exists_of_lastOf {α : Type} {value? : Declaration → Option α} {ds : List Declaration} {a : α}
    (h : lastOf value? ds = some a) : ∃ d ∈ ds, value? d = some a :=
  List.mem_filterMap.1 (List.mem_of_getLast? h)

theorem lastOf_eq_none_iff {α : Type} {value? : Declaration → Option α} {ds : List Declaration} :
    lastOf value? ds = none ↔ ∀ d ∈ ds, value? d = none := by
  rw [lastOf, List.getLast?_eq_none_iff, List.filterMap_eq_nil_iff]

/-- Each field as the last permission-set that sets it has it. -/
def lastSet (ds : List Declaration) : Permissions where
  mode := lastOf (fun d => d.permissions?.bind (·.mode)) ds
  owner := lastOf (fun d => d.permissions?.bind (·.owner)) ds
  group := lastOf (fun d => d.permissions?.bind (·.group)) ds

theorem lastSet_concat_of_none {d : Declaration} (h : d.permissions? = none)
    (ds : List Declaration) : lastSet (ds ++ [d]) = lastSet ds := by
  simp [lastSet, lastOf_concat, h]

theorem lastSet_concat_of_some {d : Declaration} {permissions : Permissions}
    (h : d.permissions? = some permissions) (ds : List Declaration) :
    lastSet (ds ++ [d]) = (lastSet ds).overlaid permissions := by
  simp [lastSet, lastOf_concat, h, Permissions.overlaid]

/-! ## What counts at a path -/

/-- Whether a declaration sweeps away what was declared at a path: a removal above it. -/
def Declaration.Sweeps (p : TargetPath) (d : Declaration) : Prop := d.IsRemoval ∧ d.path ∈ p.ancestors

instance (p : TargetPath) (d : Declaration) : Decidable (d.Sweeps p) :=
  inferInstanceAs (Decidable (_ ∧ _))

/-- The declarations at a path that come after the last removal above it. -/
def inForce (p : TargetPath) (ds : List Declaration) : List Declaration :=
  (ds.rtakeWhile fun d => ¬d.Sweeps p).filter fun d => d.path = p

@[simp]
theorem inForce_nil (p : TargetPath) : inForce p [] = [] := rfl

theorem inForce_concat_of_sweeps {p : TargetPath} {d : Declaration} (h : d.Sweeps p)
    (ds : List Declaration) : inForce p (ds ++ [d]) = [] := by
  rw [inForce, List.rtakeWhile_concat_neg _ _ _ (by simpa using h)]
  rfl

theorem inForce_concat_self (ds : List Declaration) (d : Declaration) :
    inForce d.path (ds ++ [d]) = inForce d.path ds ++ [d] := by
  have h : ¬d.Sweeps d.path := fun h => TargetPath.not_mem_ancestors_self _ h.2
  rw [inForce, List.rtakeWhile_concat_pos _ _ _ (by simpa using h), List.filter_append]
  simp [inForce]

theorem inForce_concat_of_ne {p : TargetPath} {d : Declaration} (h : ¬d.Sweeps p)
    (hne : d.path ≠ p) (ds : List Declaration) : inForce p (ds ++ [d]) = inForce p ds := by
  rw [inForce, List.rtakeWhile_concat_pos _ _ _ (by simpa using h), List.filter_append]
  simp [inForce, hne]

theorem mem_of_mem_inForce {p : TargetPath} {ds : List Declaration} {d : Declaration} (h : d ∈ inForce p ds) :
    d ∈ ds :=
  (List.rtakeWhile_suffix _ ds).subset (List.mem_of_mem_filter h)

/-- The declarations from the last removal among them on: a removal takes the place of all before it. -/
def fromRemoval (ds : List Declaration) : List Declaration :=
  ds.foldl (fun kept d => if d.IsRemoval then [d] else kept ++ [d]) []

@[simp]
theorem fromRemoval_nil : fromRemoval [] = [] := rfl

theorem fromRemoval_concat (ds : List Declaration) (d : Declaration) :
    fromRemoval (ds ++ [d]) = if d.IsRemoval then [d] else fromRemoval ds ++ [d] := by
  simp [fromRemoval, List.foldl_append]

theorem fromRemoval_eq_self {ds : List Declaration} (h : ∀ d ∈ ds, ¬d.IsRemoval) :
    fromRemoval ds = ds := by
  induction ds using List.reverseRecOn with
  | nil => rfl
  | append_singleton ds d ih =>
    rw [fromRemoval_concat, if_neg (h d (by simp)), ih fun d hd => h d (by simp [hd])]

/-! ## What is in force twice -/

section Twice

variable {p : TargetPath} {ds more : List Declaration}

theorem inForce_append_of_sweeps (ds : List Declaration) (h : ∃ d ∈ more, d.Sweeps p) :
    inForce p (ds ++ more) = inForce p more := by
  induction more using List.reverseRecOn with
  | nil =>
    obtain ⟨d, hd, -⟩ := h
    cases hd
  | append_singleton more d ih =>
    rw [← List.append_assoc]
    by_cases hd : d.Sweeps p
    · rw [inForce_concat_of_sweeps hd, inForce_concat_of_sweeps hd]
    · have hmore : ∃ d ∈ more, d.Sweeps p := by
        obtain ⟨d', hd', hs⟩ := h
        rcases List.mem_append.1 hd' with hd' | hd'
        · exact ⟨d', hd', hs⟩
        · exact absurd (List.mem_singleton.1 hd' ▸ hs) hd
      by_cases hp : d.path = p
      · subst hp
        rw [inForce_concat_self, inForce_concat_self, ih hmore]
      · rw [inForce_concat_of_ne hd hp, inForce_concat_of_ne hd hp, ih hmore]

theorem inForce_append_of_not_sweeps (ds : List Declaration) (h : ∀ d ∈ more, ¬d.Sweeps p) :
    inForce p (ds ++ more) = inForce p ds ++ more.filter (·.path = p) := by
  induction more using List.reverseRecOn with
  | nil => simp
  | append_singleton more d ih =>
    have hmore := ih fun d' hd' => h d' (List.mem_append_left _ hd')
    have hd := h d (by simp)
    rw [← List.append_assoc]
    by_cases hp : d.path = p
    · subst hp
      rw [inForce_concat_self, hmore]
      simp
    · rw [inForce_concat_of_ne hd hp, hmore]
      simp [hp]

theorem fromRemoval_append_of_removal (ds : List Declaration) (h : ∃ d ∈ more, d.IsRemoval) :
    fromRemoval (ds ++ more) = fromRemoval more := by
  induction more using List.reverseRecOn with
  | nil =>
    obtain ⟨d, hd, -⟩ := h
    cases hd
  | append_singleton more d ih =>
    rw [← List.append_assoc, fromRemoval_concat, fromRemoval_concat]
    split
    · rfl
    · rename_i hd
      have hmore : ∃ d ∈ more, d.IsRemoval := by
        obtain ⟨d', hd', hremoval⟩ := h
        rcases List.mem_append.1 hd' with hd' | hd'
        · exact ⟨d', hd', hremoval⟩
        · exact absurd (List.mem_singleton.1 hd' ▸ hremoval) hd
      rw [ih hmore]

/-- Made twice, the same declarations count at a path as when made once. -/
theorem mem_fromRemoval_inForce_append_self {d : Declaration} :
    d ∈ fromRemoval (inForce p (ds ++ ds)) ↔ d ∈ fromRemoval (inForce p ds) := by
  by_cases hsweeps : ∃ d ∈ ds, d.Sweeps p
  · rw [inForce_append_of_sweeps ds hsweeps]
  · have hnone : ∀ d ∈ ds, ¬d.Sweeps p := fun d hd hs => hsweeps ⟨d, hd, hs⟩
    have hself : inForce p ds = ds.filter (·.path = p) := inForce_append_of_not_sweeps [] hnone
    rw [inForce_append_of_not_sweeps ds hnone, hself]
    by_cases hremoval : ∃ d ∈ ds.filter (·.path = p), d.IsRemoval
    · rw [fromRemoval_append_of_removal _ hremoval]
    · have hkept : ∀ d ∈ ds.filter (·.path = p), ¬d.IsRemoval := fun d hd hr => hremoval ⟨d, hd, hr⟩
      rw [fromRemoval_eq_self (by simpa using hkept), fromRemoval_eq_self hkept, List.mem_append, or_self]

end Twice

end Provision
