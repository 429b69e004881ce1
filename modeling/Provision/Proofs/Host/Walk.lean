import Provision.Host.Tree

/-! # Walks

Walking along a path as a relation: one rule for each step that can be made, none for the faults.

* `Has` — what has a name in a directory; `Walks` — the steps that lead from a location to another.
* `walk_enter`, `walk_link`, `walk_stop`, … — each step; `walk_eq_ok_iff` — a walk that ends well made such steps.
* `Walks.followed`, `Walks.walk_append` — where a last link is followed or not, and where there is more to walk.
-/

namespace Provision

/-- Whether it is a link. -/
def Inode.IsLink (i : Inode) : Prop := ∃ target, i.matter = .symlink target

namespace Tree

/-- What has a proper name in a directory where names can be looked up. -/
structure Has (t : Tree) (l : Location) (name : Octets) (i : Inode) : Prop where
  lookup : t.lookupFault? l = none
  ne_nil : name ≠ []
  ne_self : name ≠ selfName
  ne_up : name ≠ upName
  length_le : name.length ≤ longestName
  inode : t.inode? (l ++ [name]) = some i

/-- The steps that lead from a location to another. -/
inductive Walks (t : Tree) (follow : Bool) : Nat → List Octets → Location → Location → Prop where
  | arrived {budget l} : Walks t follow budget [] l l
  | trailing {budget rest l r i} : t.inode? l = some i → i.isDirectory = true → Walks t follow budget rest l r →
      Walks t follow budget ([] :: rest) l r
  | self {budget rest l r} : t.lookupFault? l = none → Walks t follow budget rest l r →
      Walks t follow budget (selfName :: rest) l r
  | up {budget rest l r} : t.lookupFault? l = none → Walks t follow budget rest l.dropLast r →
      Walks t follow budget (upName :: rest) l r
  /-- Names lead on to what has them, unless that is a link. -/
  | enter {budget name rest l r i} : t.Has l name i → ¬i.IsLink → Walks t follow budget rest (l ++ [name]) r →
      Walks t follow budget (name :: rest) l r
  /-- A link leads to its target; what follows the name starts from there. -/
  | link {budget name rest l r i target} : t.Has l name i → i.matter = .symlink target → (rest = [] → follow = true) →
      Walks t follow budget (steps target ++ rest) (start l target) r → Walks t follow (budget + 1) (name :: rest) l r
  /-- A last link that is not followed is where the steps lead. -/
  | stop {budget name l i} : t.Has l name i → i.IsLink → follow = false → Walks t follow budget [name] l (l ++ [name])

variable {t : Tree} {follow : Bool} {budget : Nat} {name : Octets} {names rest : List Octets} {l r : Location} {i : Inode}
  {target : Octets}

/-! ## Steps -/

theorem walk_trailing (hi : t.inode? l = some i) (hdirectory : i.isDirectory = true) :
    t.walk follow budget ([] :: rest) l = t.walk follow budget rest l := by
  simp [walk, hi, hdirectory]

theorem walk_self (hlookup : t.lookupFault? l = none) :
    t.walk follow budget (selfName :: rest) l = t.walk follow budget rest l := by
  have hne : selfName ≠ [] := by decide
  simp [walk, hlookup]

theorem walk_up (hlookup : t.lookupFault? l = none) :
    t.walk follow budget (upName :: rest) l = t.walk follow budget rest l.dropLast := by
  have hne : upName ≠ [] := by decide
  have hself : upName ≠ selfName := by decide
  simp [walk, hself, hlookup]

theorem walk_enter (has : t.Has l name i) (hlink : ¬i.IsLink) :
    t.walk follow budget (name :: rest) l = t.walk follow budget rest (l ++ [name]) := by
  obtain ⟨hlookup, hne, hself, hup, hlength, hi⟩ := has
  obtain ⟨matter, mode, mtime⟩ := i
  cases matter with
  | symlink target => exact absurd ⟨target, rfl⟩ hlink
  | _ => simp [walk, hlookup, hself, hup, Nat.not_lt.2 hlength, hi]

theorem walk_link (has : t.Has l name i) (htarget : i.matter = .symlink target) (hlast : rest = [] → follow = true) :
    t.walk follow (budget + 1) (name :: rest) l = t.walk follow budget (steps target ++ rest) (start l target) := by
  obtain ⟨hlookup, hne, hself, hup, hlength, hi⟩ := has
  obtain ⟨matter, mode, mtime⟩ := i
  cases htarget
  simp only [walk, hlookup, hself, hup, Nat.not_lt.2 hlength, hi, if_false, Bool.and_eq_true, List.isEmpty_iff,
    Bool.not_eq_true', ite_eq_right_iff, and_imp]
  intro hnil hstop
  cases (hlast hnil).symm.trans hstop

theorem walk_stop (has : t.Has l name i) (hlink : i.IsLink) : t.walk false budget [name] l = .ok (l ++ [name]) := by
  obtain ⟨hlookup, hne, hself, hup, hlength, hi⟩ := has
  obtain ⟨matter, mode, mtime⟩ := i
  obtain ⟨target, rfl⟩ := hlink
  simp [walk, hlookup, hself, hup, Nat.not_lt.2 hlength, hi]

/-- A walk that ends well made such steps. -/
theorem walks_of_walk (h : t.walk follow budget names l = .ok r) : t.Walks follow budget names l r := by
  revert h
  fun_induction walk t follow budget names l <;> intro h
  case case1 => cases h; exact .arrived
  case case3 hi hdirectory ih => exact .trailing hi hdirectory (ih h)
  case case6 hlookup _ ih => exact .self hlookup (ih h)
  case case7 hlookup _ _ ih => exact .up hlookup (ih h)
  case case10 hne hlookup hself hup hlength target mode mtime hi hlast =>
    cases h
    rw [Bool.and_eq_true, List.isEmpty_iff, Bool.not_eq_true'] at hlast
    obtain ⟨rfl, hfollow⟩ := hlast
    exact .stop ⟨hlookup, hne, hself, hup, Nat.not_lt.1 hlength, hi⟩ ⟨target, rfl⟩ hfollow
  case case12 hne hlookup hself hup hlength target mode mtime hi hlast budget ih =>
    refine .link ⟨hlookup, hne, hself, hup, Nat.not_lt.1 hlength, hi⟩ rfl ?_ (ih h)
    simpa using hlast
  case case13 hne hlookup hself hup hlength i hlink hi ih =>
    refine .enter ⟨hlookup, hne, hself, hup, Nat.not_lt.1 hlength, hi⟩ ?_ (ih h)
    rintro ⟨target, htarget⟩
    exact hlink target i.mode i.mtime (by rw [← htarget])
  -- The rest are faults.
  all_goals cases h

theorem Walks.walk (h : t.Walks follow budget names l r) : t.walk follow budget names l = .ok r := by
  induction h with
  | arrived => rw [Tree.walk]
  | trailing hi hdirectory _ ih => exact (walk_trailing hi hdirectory).trans ih
  | self hlookup _ ih => exact (walk_self hlookup).trans ih
  | up hlookup _ ih => exact (walk_up hlookup).trans ih
  | enter has hlink _ ih => exact (walk_enter has hlink).trans ih
  | link has htarget hlast _ ih => exact (walk_link has htarget hlast).trans ih
  | stop has hlink hfollow =>
    subst hfollow
    exact walk_stop has hlink

theorem walk_eq_ok_iff : t.walk follow budget names l = .ok r ↔ t.Walks follow budget names l r :=
  ⟨walks_of_walk, Walks.walk⟩

/-! ## Ends -/

/-- Whether a last link is followed makes no difference where the walk does not end at one. -/
theorem Walks.followed (h : t.Walks false budget names l r) (hi : t.inode? r = some i) (hlink : ¬i.IsLink) :
    t.Walks true budget names l r := by
  induction h with
  | arrived => exact .arrived
  | trailing hdir hdirectory _ ih => exact .trailing hdir hdirectory (ih hi)
  | self hlookup _ ih => exact .self hlookup (ih hi)
  | up hlookup _ ih => exact .up hlookup (ih hi)
  | enter has hother _ ih => exact .enter has hother (ih hi)
  | link has htarget _ _ ih => exact .link has htarget (fun _ => rfl) (ih hi)
  | stop has hstop _ =>
    cases has.inode.symm.trans hi
    exact absurd hstop hlink

/-- What follows some steps starts from where these lead, with the links that they have left over. -/
theorem Walks.walk_append (h : t.Walks true budget names l r) (follow : Bool) (hrest : rest ≠ []) :
    ∃ left, t.walk follow budget (names ++ rest) l = t.walk follow left rest r := by
  induction h with
  | arrived => exact ⟨_, rfl⟩
  | trailing hi hdirectory _ ih => exact ih.imp fun _ => (walk_trailing hi hdirectory).trans
  | self hlookup _ ih => exact ih.imp fun _ => (walk_self hlookup).trans
  | up hlookup _ ih => exact ih.imp fun _ => (walk_up hlookup).trans
  | enter has hlink _ ih => exact ih.imp fun _ => (walk_enter has hlink).trans
  | link has htarget _ _ ih =>
    refine ih.imp fun left heq => ?_
    rw [List.append_assoc] at heq
    exact (walk_link has htarget fun hnil => absurd (List.append_eq_nil_iff.1 hnil).2 hrest).trans heq
  | stop _ _ hfollow => cases hfollow

end Tree

end Provision
