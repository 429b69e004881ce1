import Provision.Proofs.Host.Walk
import Provision.Proofs.SortedMap

/-! # New files

A file at a location where nothing was changes nothing else: paths lead where they led, apart from those that lead to
the file itself, and the tree is the old one when the file is taken away.

* `inode?_insert_self`, `inode?_insert_of_ne`, `erase_insert_of_fresh`, `insert_insert` — the tree, by location.
* `Walks.of_insert`, `nameAt_insert_file` — paths.
* `IsPlace` — where a path puts a file; `newLocation_fresh`, `moveInto_insert_file` — the file itself: made, and moved
  into place.
-/

namespace Provision.Tree

variable {t t' : Tree} {l l' : Location} {i i' : Inode} {content : Octets} {mode : Nat} {mtime : Int}

/-! ## Locations -/

@[simp]
theorem inode?_insert_self (t : Tree) (l : Location) (i : Inode) : (t.insert l i).inode? l = some i := by
  simp [inode?, insert]

theorem inode?_insert_of_ne (h : l' ≠ l) : (t.insert l i).inode? l' = t.inode? l' := by
  rw [inode?, insert, SortedMap.find?_insert_of_ne i h, inode?]

theorem erase_insert_of_fresh (fresh : t.inode? l = none) : (t.insert l i).erase l = t := by
  rw [erase, insert, SortedMap.erase_insert (Option.or_eq_none_iff.1 fresh).1]

theorem insert_insert (t : Tree) (l : Location) (i i' : Inode) : (t.insert l i).insert l i' = t.insert l i' := by
  rw [insert, insert, insert, SortedMap.insert_insert]

theorem lookupFault?_insert_of_ne (h : l' ≠ l) : (t.insert l i).lookupFault? l' = t.lookupFault? l' := by
  rw [lookupFault?, lookupFault?, inode?_insert_of_ne h]

/-! ## Paths -/

theorem ne_of_lookup {file : Inode} (hfile : file.isDirectory = false) (h : (t.insert l' file).lookupFault? l = none) :
    l ≠ l' := by
  rintro rfl
  simp [lookupFault?, hfile] at h

/-- Nothing lies behind a file. -/
theorem Walks.eq_of_file {follow : Bool} {budget : Nat} {names : List Octets} (hi : t.inode? l = some i)
    (hfile : i.isDirectory = false) (h : t.Walks follow budget names l l') : l' = l := by
  have hlookup : t.lookupFault? l ≠ none := by simp [lookupFault?, hi, hfile]
  cases h with
  | arrived => rfl
  | trailing hdir hdirectory =>
    cases hi.symm.trans hdir
    cases hfile.symm.trans hdirectory
  | self hnone => exact absurd hnone hlookup
  | up hnone => exact absurd hnone hlookup
  | enter has => exact absurd has.lookup hlookup
  | link has => exact absurd has.lookup hlookup
  | stop has => exact absurd has.lookup hlookup

theorem Has.of_insert {name : Octets} {file : Inode} (hfile : file.isDirectory = false)
    (h : (t.insert l' file).Has l name i) (hne : l ++ [name] ≠ l') : t.Has l name i := by
  obtain ⟨hlookup, hnil, hself, hup, hlength, hi⟩ := h
  rw [lookupFault?_insert_of_ne (ne_of_lookup hfile hlookup)] at hlookup
  rw [inode?_insert_of_ne hne] at hi
  exact ⟨hlookup, hnil, hself, hup, hlength, hi⟩

/-- A walk that does not lead to a file leads where it would lead if something else were there. -/
theorem Walks.of_insert {follow : Bool} {budget : Nat} {names : List Octets} {r : Location}
    (h : (t.insert l' ⟨.file content, mode, mtime⟩).Walks follow budget names l r) (hr : r ≠ l') :
    t.Walks follow budget names l r := by
  have hlink : ¬Inode.IsLink ⟨.file content, mode, mtime⟩ := nofun
  -- Names are looked up elsewhere only, as a file is no directory, and a link that is found is no file.
  induction h with
  | arrived => exact .arrived
  | @trailing _ _ l _ _ hi hdirectory _ ih =>
    have hne : l ≠ l' := by
      rintro rfl
      cases (inode?_insert_self ..).symm.trans hi
      cases hdirectory
    rw [inode?_insert_of_ne hne] at hi
    exact .trailing hi hdirectory (ih hr)
  | self hlookup _ ih =>
    rw [lookupFault?_insert_of_ne (ne_of_lookup rfl hlookup)] at hlookup
    exact .self hlookup (ih hr)
  | up hlookup _ ih =>
    rw [lookupFault?_insert_of_ne (ne_of_lookup rfl hlookup)] at hlookup
    exact .up hlookup (ih hr)
  | enter has hother hrest ih =>
    refine .enter (has.of_insert rfl ?_) hother (ih hr)
    rintro rfl
    exact hr (hrest.eq_of_file (inode?_insert_self ..) rfl)
  | link has htarget hlast _ ih =>
    refine .link (has.of_insert rfl ?_) htarget hlast (ih hr)
    rintro rfl
    cases (inode?_insert_self ..).symm.trans has.inode
    exact hlink ⟨_, htarget⟩
  | stop has hstop hfollow => exact .stop (has.of_insert rfl hr) hstop hfollow

theorem nameAt_eq_ok_iff {p : HostPath} {name : Octets} : t.nameAt p = .ok (l, name) ↔
    t.walk true linkBudget ((steps p.octets).filter fun s => !s.isEmpty).dropLast (start t.here p.octets) = .ok l ∧
      t.lookupFault? l = none ∧ name = ((steps p.octets).filter fun s => !s.isEmpty).getLastD [] := by
  simp only [nameAt, bind, Except.bind]
  cases t.walk true linkBudget ((steps p.octets).filter fun s => !s.isEmpty).dropLast (start t.here p.octets) with
  | error => simp
  | ok l₀ =>
    cases hlookup : t.lookupFault? l₀ with
    | some =>
      simp only [hlookup, Except.ok.injEq]
      constructor
      · intro h
        cases h
      · rintro ⟨rfl, hnone, -⟩
        cases hlookup.symm.trans hnone
    | none =>
      simp only [hlookup, pure, Except.pure, Except.ok.injEq, Prod.mk.injEq]
      constructor
      · rintro ⟨rfl, rfl⟩
        exact ⟨rfl, hlookup, rfl⟩
      · rintro ⟨rfl, -, rfl⟩
        exact ⟨rfl, rfl⟩

/-- As the directory that a path names is no file, the path names the same place whatever else is where a file is. -/
theorem nameAt_insert_file {p : HostPath} {name : Octets}
    (h : (t.insert l' ⟨.file content, mode, mtime⟩).nameAt p = .ok (l, name)) : t.nameAt p = .ok (l, name) := by
  obtain ⟨hwalk, hlookup, hname⟩ := nameAt_eq_ok_iff.1 h
  have hne : l ≠ l' := by
    rintro rfl
    simp [lookupFault?, Inode.isDirectory] at hlookup
  rw [lookupFault?_insert_of_ne hne] at hlookup
  exact nameAt_eq_ok_iff.2 ⟨((walks_of_walk hwalk).of_insert hne).walk, hlookup, hname⟩

/-! ## The file -/

theorem newLocation_fresh {directory : HostPath} {names : List Octets} {name : Octets}
    (h : t.newLocation directory names = .ok (l, name)) : t.inode? (l ++ [name]) = none := by
  simp only [newLocation, bind, Except.bind] at h
  split at h
  · cases h
  · split at h
    · cases h
    · split at h
      · cases h
      · rename_i hfind
        cases h
        simpa using List.find?_some hfind

/-- A name that can be given to a file is not that of a directory. -/
theorem not_isDirectory_of_nameFault? {p : HostPath} {name : Octets} (h : t.nameFault? p l name = none)
    (hi : t.inode? (l ++ [name]) = some i) : i.isDirectory = false := by
  unfold nameFault? at h
  split_ifs at h with hbusy hlong hopen hdirectory
  rw [hi] at hdirectory
  simpa using hdirectory

/-- Where a path puts a file: under which name, and in the directory at which location. -/
structure IsPlace (t : Tree) (p : HostPath) (l : Location) (name : Octets) : Prop where
  pathFault : pathFault? p = none
  nameAt : t.nameAt p = .ok (l, name)
  nameFault : t.nameFault? p l name = none

/-- What moving a file comes to. -/
theorem moveInto_cases {source : Location} {p : HostPath} (h : t.moveInto source p = .ok t') :
    ∃ l name i, t.IsPlace p l name ∧ t.inode? source = some i ∧ t' = (t.erase source).insert (l ++ [name]) i := by
  simp only [moveInto, bind, Except.bind] at h
  split at h
  · cases h
  · rename_i hpath
    split at h
    · cases h
    · rename_i place hplace
      split at h
      · cases h
      · cases h
      · rename_i i hfault hsource
        cases h
        exact ⟨place.1, place.2, i, ⟨Option.eq_none_iff_forall_ne_some.2 hpath, hplace, hfault⟩, hsource, rfl⟩

/-- A new file keeps no other from a name. -/
theorem nameFault?_insert_file (fresh : t.inode? l' = none) (p : HostPath) (l : Location) (name : Octets) :
    (t.insert l' ⟨.file content, mode, mtime⟩).nameFault? p l name = t.nameFault? p l name := by
  have hany : ((t.insert l' ⟨.file content, mode, mtime⟩).inode? (l ++ [name])).any (·.isDirectory) =
      (t.inode? (l ++ [name])).any (·.isDirectory) := by
    by_cases heq : l ++ [name] = l'
    · rw [heq, inode?_insert_self, fresh]
      rfl
    · rw [inode?_insert_of_ne heq]
  rw [nameFault?, nameFault?, hany]

/-- A new file that is moved to a path is there, and nothing else has changed. -/
theorem moveInto_insert_file {p : HostPath} (fresh : t.inode? l' = none)
    (h : (t.insert l' ⟨.file content, mode, mtime⟩).moveInto l' p = .ok t') :
    ∃ l name, t.IsPlace p l name ∧ t' = t.insert (l ++ [name]) ⟨.file content, mode, mtime⟩ := by
  obtain ⟨l, name, i, ⟨hpath, hplace, hfault⟩, hsource, rfl⟩ := moveInto_cases h
  rw [inode?_insert_self] at hsource
  cases hsource
  rw [nameFault?_insert_file fresh] at hfault
  exact ⟨l, name, ⟨hpath, nameAt_insert_file hplace, hfault⟩, by rw [erase_insert_of_fresh fresh]⟩

end Provision.Tree
