import Provision.Command.Session
import Provision.Proofs.Host.NewFile

/-! # Output

Writing an output file either succeeds, and then nothing but that file has changed, or it fails and leaves the machine
as it was, whatever had been done by then. What has been printed stays, also where standard output did not take all of
it.

* `on_bind`, `on_get`, `on_ofTraced`, … — what the steps of a session come to.
* `print_cases` — the two ends of printing; `replaceFile_cases` — those of writing a file.
-/

namespace Provision.Session

variable {α β : Type}

/-! ## Steps -/

@[simp]
theorem on_pure (a : α) (m : Machine) : (pure a : Session α).on m = (.ok a, m) := rfl

@[simp]
theorem on_throw (stop : Stop) (m : Machine) : (throw stop : Session α).on m = (.error stop, m) := rfl

@[simp]
theorem on_fail (message : String) (causes : List String) (m : Machine) :
    (fail message causes : Session α).on m = (.error (.failure ⟨message, causes⟩), m) := rfl

@[simp]
theorem on_get (m : Machine) : (get : Session Machine).on m = (.ok m, m) := rfl

@[simp]
theorem on_modify (f : Machine → Machine) (m : Machine) : (modify f : Session Unit).on m = (.ok (), f m) := rfl

theorem on_bind (x : Session α) (f : α → Session β) (m : Machine) : (x >>= f).on m =
    match x.on m with
    | (.ok a, m') => (f a).on m'
    | (.error stop, m') => (.error stop, m') := by
  change ExceptT.bindCont f (x.on m).1 (x.on m).2 = _
  obtain ⟨_ | _, m'⟩ := x.on m <;> rfl

theorem on_bind_eq_ok_iff {x : Session α} {f : α → Session β} {b : β} {m m' : Machine} :
    (x >>= f).on m = (.ok b, m') ↔ ∃ a m₁, x.on m = (.ok a, m₁) ∧ (f a).on m₁ = (.ok b, m') := by
  rw [on_bind]
  obtain ⟨_ | _, m₁⟩ := x.on m <;> simp

theorem on_bind_eq_error_iff {x : Session α} {f : α → Session β} {stop : Stop} {m m' : Machine} :
    (x >>= f).on m = (.error stop, m') ↔ x.on m = (.error stop, m') ∨
      ∃ a m₁, x.on m = (.ok a, m₁) ∧ (f a).on m₁ = (.error stop, m') := by
  rw [on_bind]
  obtain ⟨_ | _, m₁⟩ := x.on m <;> simp

theorem on_bind_of_ok {x : Session α} {a : α} {m m' : Machine} (h : x.on m = (.ok a, m')) (f : α → Session β) :
    (x >>= f).on m = (f a).on m' := by
  rw [on_bind, h]

theorem on_bind_of_error {x : Session α} {stop : Stop} {m m' : Machine} (h : x.on m = (.error stop, m'))
    (f : α → Session β) : (x >>= f).on m = (.error stop, m') := by
  rw [on_bind, h]

theorem on_tryCatch (x : Session α) (f : Stop → Session α) (m : Machine) : (tryCatch x f).on m =
    match x.on m with
    | (.ok a, m') => (.ok a, m')
    | (.error stop, m') => (f stop).on m' := by
  change ExceptT.tryCatch x f m = _
  have h : x.on m = x m := rfl
  rw [h]
  simp only [ExceptT.tryCatch, ExceptT.mk, bind, StateT.bind]
  obtain ⟨_ | _, m'⟩ := x m <;> rfl

@[simp]
theorem on_ofTraced (traced : Traced Failure α) (m : Machine) :
    (ofTraced traced).on m = (traced.result.mapError .failure, { m with notes := m.notes ++ traced.notes }) := by
  obtain ⟨notes, _ | _⟩ := traced <;> rfl

@[simp]
theorem on_liftM (traced : Traced Failure α) (m : Machine) :
    (liftM traced : Session α).on m = (traced.result.mapError .failure, { m with notes := m.notes ++ traced.notes }) :=
  on_ofTraced traced m

/-! ## Standard output -/

/-- All is printed, or standard output has taken what there was room for and has refused the rest. -/
theorem print_cases (outlet : Outlet) (refused : HostFault → Stop) (octets : Octets) (m : Machine) :
    (outlet.room.lacks (m.printed ++ octets) ∧ (print outlet refused octets).on m =
        (.error (refused outlet.fault), { m with printed := outlet.room.part (m.printed ++ octets) })) ∨
      (print outlet refused octets).on m = (.ok (), { m with printed := m.printed ++ octets }) := by
  rw [print, on_bind_of_ok (on_get m), on_bind_of_ok (on_modify ..)]
  split
  · rename_i hlacks
    exact .inl ⟨hlacks, on_throw ..⟩
  · rename_i hall
    rw [Room.part_of_not_lacks hall]
    exact .inr (on_pure ..)

/-! ## Files -/

theorem withFile_withFile (m : Machine) (l : Location) (content content' : Octets) :
    (m.withFile l content).withFile l content' = m.withFile l content' := by
  simp only [Machine.withFile, Tree.insert_insert]

theorem without_withFile {m : Machine} {l : Location} (fresh : m.tree.inode? l = none) (content : Octets) :
    (m.withFile l content).without l = m := by
  simp only [Machine.without, Machine.withFile, Tree.erase_insert_of_fresh fresh]

/-- A provisional file is made, or the machine is as it was. -/
theorem makeProvisional_cases (s : Supplies) (directory : HostPath) (m : Machine) :
    (∃ stop, (makeProvisional s directory).on m = (.error stop, m)) ∨
      ∃ file, m.tree.inode? file.location = none ∧
        (makeProvisional s directory).on m = (.ok file, m.withFile file.location []) := by
  rw [makeProvisional, on_bind_of_ok (on_get m)]
  cases hplace : m.tree.newLocation directory s.names with
  | error fault =>
    simp only [hplace, on_fail]
    exact .inl ⟨_, rfl⟩
  | ok place =>
    simp only [hplace, on_bind_of_ok (on_modify ..), on_pure]
    exact .inr ⟨_, Tree.newLocation_fresh hplace, rfl⟩

/-- What there is room for is in the file, whether or not that is all. -/
theorem fill_cases (s : Supplies) (file : Provisional) (octets : Octets) (m : Machine) :
    (∃ stop, (fill s file octets).on m = (.error stop, m.withFile file.location (s.room.part octets))) ∨
      (fill s file octets).on m = (.ok (), m.withFile file.location octets) := by
  rw [fill, on_bind_of_ok (on_modify ..)]
  split
  · exact .inl ⟨_, on_fail ..⟩
  · rename_i hall
    rw [Room.part_of_not_lacks hall]
    exact .inr (on_pure ..)

/-- A file is moved, or the machine is as it was. -/
theorem moveInto_cases (l : Location) (path : HostPath) (m : Machine) :
    (∃ stop, (moveInto l path).on m = (.error stop, m)) ∨
      ∃ t, m.tree.moveInto l path = .ok t ∧ (moveInto l path).on m = (.ok (), { m with tree := t }) := by
  rw [moveInto, on_bind_of_ok (on_get m)]
  cases hmoved : m.tree.moveInto l path with
  | error fault => exact .inl ⟨_, on_fail ..⟩
  | ok t => exact .inr ⟨t, rfl, on_modify ..⟩

/-- A new file is filled and moved to a path, or it is gone. -/
theorem complete_cases (s : Supplies) {file : Provisional} (path : HostPath) (octets : Octets) {content : Octets}
    {m : Machine} (fresh : m.tree.inode? file.location = none) :
    (∃ stop, (complete s file path octets).on (m.withFile file.location content) = (.error stop, m)) ∨
      ∃ l name, m.tree.IsPlace path l name ∧
        (complete s file path octets).on (m.withFile file.location content) =
          (.ok (), m.withFile (l ++ [name]) octets) := by
  rw [complete, on_tryCatch]
  obtain ⟨stop, hfill⟩ | hfill := fill_cases s file octets (m.withFile file.location content)
  · -- Whatever is in the file by now, taking it away leaves what was there before it was made.
    rw [withFile_withFile] at hfill
    simp only [on_bind_of_error hfill, on_bind_of_ok (on_modify ..), on_throw, without_withFile fresh]
    exact .inl ⟨stop, rfl⟩
  · rw [withFile_withFile] at hfill
    rw [on_bind_of_ok hfill]
    obtain ⟨stop, hmove⟩ | ⟨t, hmoved, hmove⟩ := moveInto_cases file.location path (m.withFile file.location octets)
    · simp only [hmove, on_bind_of_ok (on_modify ..), on_throw, without_withFile fresh]
      exact .inl ⟨stop, rfl⟩
    · obtain ⟨l, name, hplace, rfl⟩ := Tree.moveInto_insert_file fresh hmoved
      rw [hmove]
      exact .inr ⟨l, name, hplace, rfl⟩

/-- An output file is written and nothing else has changed, or the machine is as it was. -/
theorem replaceFile_cases (s : Supplies) (path : HostPath) (octets : Octets) (force : Bool) (m : Machine) :
    (∃ stop, (replaceFile s path octets force).on m = (.error stop, m)) ∨
      ∃ l name, m.tree.IsPlace path l name ∧
        (replaceFile s path octets force).on m =
          (.ok (), { m.withFile (l ++ [name]) octets with written := some (path, octets) }) := by
  rw [replaceFile, on_bind_of_ok (on_get m)]
  split
  · exact .inl ⟨_, on_fail ..⟩
  · obtain ⟨stop, hmade⟩ | ⟨file, fresh, hmade⟩ := makeProvisional_cases s path.directory m
    · exact .inl ⟨stop, on_bind_of_error hmade _⟩
    · rw [on_bind_of_ok hmade]
      obtain ⟨stop, hdone⟩ | ⟨l, name, hplace, hdone⟩ := complete_cases s path octets fresh
      · exact .inl ⟨stop, on_bind_of_error hdone _⟩
      · rw [on_bind_of_ok hdone]
        exact .inr ⟨l, name, hplace, rfl⟩

end Provision.Session
