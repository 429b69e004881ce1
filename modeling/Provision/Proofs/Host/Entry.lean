import Provision.Proofs.Host.NewFile

/-! # Entries

What stands at a path is not what the path leads to where it is a link. Whatever else stands at a path is what the path
leads to, so only a link can be there unnoticed by one who asks what the path leads to.

* `Names` — where a path may be said to stand; `LeadsNowhere` — whether a link stands there and leads to nothing.
* `exists?_of_entry` — whatever else stands at a path is noticed.
* `IsPlace.locate_eq_ok_iff` — what stands where a path would put a file is what stands at the path.
-/

namespace Provision.Tree

variable {t : Tree} {l : Location} {i : Inode} {p : HostPath} {name : Octets}

/-- Whether a path names a location: it leads there, its last link not followed, or it ends with the name that the
    location has in its directory. The latter is more where a separator at the end asks for a directory. -/
def Names (t : Tree) (p : HostPath) (l : Location) : Prop :=
  t.locate false p = .ok l ∨ ∃ l' name, t.nameAt p = .ok (l', name) ∧ l = l' ++ [name]

/-- Whether a link stands at a path and leads to nothing: what it names is not there, or cannot be found. -/
def LeadsNowhere (t : Tree) (p : HostPath) : Prop :=
  ∃ l i, t.locate false p = .ok l ∧ t.inode? l = some i ∧ i.IsLink ∧ t.exists? p = false

theorem locate_eq_ok_iff {follow : Bool} : t.locate follow p = .ok l ↔
    pathFault? p = none ∧ t.Walks follow linkBudget (steps p.octets) (start t.here p.octets) l := by
  rw [locate]
  cases hpath : pathFault? p with
  | some fault => simp
  | none => simp [walk_eq_ok_iff]

/-- What stands at a path and is no link that leads to nothing is found by one who asks what the path leads to. -/
theorem exists?_of_entry (hentry : t.locate false p = .ok l) (hi : t.inode? l = some i) (h : ¬t.LeadsNowhere p) :
    t.exists? p = true := by
  by_cases hlink : i.IsLink
  · cases hexists : t.exists? p with
    | true => rfl
    | false => exact absurd ⟨l, i, hentry, hi, hlink, hexists⟩ h
  · obtain ⟨hpath, hwalks⟩ := locate_eq_ok_iff.1 hentry
    have hfollowed : t.locate true p = .ok l := locate_eq_ok_iff.2 ⟨hpath, hwalks.followed hi hlink⟩
    rw [exists?, status, hfollowed]
    simp [bind, Except.bind, hi, Except.toBool]

/-- The name that a path puts a file under is a proper one, and nothing follows it. -/
theorem IsPlace.name_isProper (h : t.IsPlace p l name) :
    (name ≠ [] ∧ name ≠ selfName ∧ name ≠ upName ∧ name.length ≤ longestName) ∧ p.endsOpen = false := by
  have hfault := h.nameFault
  unfold nameFault? at hfault
  split_ifs at hfault with hbusy hlong hopen hdirectory
  simp only [Bool.or_eq_true, List.isEmpty_iff, decide_eq_true_eq, not_or] at hbusy
  exact ⟨⟨hbusy.1.1, hbusy.1.2, hbusy.2, Nat.not_lt.1 hlong⟩, by simpa using hopen⟩

/-- The steps along a path end with the name that it puts a file under. -/
theorem IsPlace.steps_eq (h : t.IsPlace p l name) :
    steps p.octets = ((steps p.octets).filter fun s => !s.isEmpty).dropLast ++ [name] := by
  obtain ⟨⟨hne, -⟩, hclosed⟩ := h.name_isProper
  obtain ⟨-, -, hname⟩ := nameAt_eq_ok_iff.1 h.nameAt
  have hsteps : steps p.octets = (pieces slash p.octets).filter fun s => !s.isEmpty := by
    rw [steps, if_neg fun hlast => of_decide_eq_false hclosed hlast.1]
  have hproper : (steps p.octets).filter (fun s => !s.isEmpty) = steps p.octets := by
    rw [hsteps, List.filter_filter]
    simp
  rw [hproper] at hname ⊢
  have hsome : steps p.octets ≠ [] := by
    intro hnil
    rw [hnil] at hname
    exact hne hname
  rw [hname, List.getLastD_eq_getLast?, List.getLast?_eq_some_getLast hsome, Option.getD_some,
    List.dropLast_concat_getLast hsome]

/-- What stands where a path would put a file is what stands at the path. -/
theorem IsPlace.locate_eq_ok_iff (h : t.IsPlace p l name) {l' : Location} :
    t.locate false p = .ok l' ↔ l' = l ++ [name] ∧ (t.inode? (l ++ [name])).isSome := by
  obtain ⟨⟨hne, hself, hup, hlength⟩, -⟩ := h.name_isProper
  obtain ⟨hwalk, hlookup, -⟩ := nameAt_eq_ok_iff.1 h.nameAt
  -- The file is put in the directory to which the steps before the name lead, with any links among them followed.
  obtain ⟨left, hrest⟩ := (walks_of_walk hwalk).walk_append false (List.cons_ne_nil name [])
  rw [locate, h.pathFault, h.steps_eq]
  simp only [hrest]
  cases hi : t.inode? (l ++ [name]) with
  | none => simp [walk, hlookup, hself, hup, Nat.not_lt.2 hlength, hi]
  | some i =>
    have has : t.Has l name i := ⟨hlookup, hne, hself, hup, hlength, hi⟩
    have hends : t.walk false left [name] l = .ok (l ++ [name]) := by
      by_cases hlink : i.IsLink
      · exact walk_stop has hlink
      · rw [walk_enter has hlink, walk]
    rw [hends]
    simp [eq_comm]

theorem IsPlace.locate_of_names (h : t.IsPlace p l name) {l' : Location} (hnames : t.Names p l')
    (hi : t.inode? l' = some i) : t.locate false p = .ok l' := by
  obtain hentry | ⟨l'', name', hplace, rfl⟩ := hnames
  · exact hentry
  · cases h.nameAt.symm.trans hplace
    exact h.locate_eq_ok_iff.2 ⟨rfl, by rw [hi]; rfl⟩

end Provision.Tree
