import Provision.Proofs.Command.Run
import Provision.Proofs.Host.Entry

/-! # Overwriting

Without `--force` a run of `compile` asks whether the path of its output leads to anything, and refuses to go on if it
does. Whatever stands at the path stays then, unless it is a link that leads to nothing: that is replaced as with
`--force`.

* `replaceFile_refused`, `replaceFile_unforced` — the question, and what hangs on it.
* `compileTask_unforced` — where the path leads to nothing, the flag makes no difference.
* `runWith_replaces` — what a run that ends well has changed.
* `runWith_spares` — the statement.
-/

namespace Provision

namespace Session

variable {s : Supplies} {path : HostPath} {octets : Octets} {m : Machine}

/-- Where the path leads to something, nothing is done. -/
theorem replaceFile_refused (h : m.tree.exists? path = true) : (replaceFile s path octets false).on m =
    (.error (.failure ⟨s!"{path} already exists (use --force to overwrite)", []⟩), m) := by
  rw [replaceFile, on_bind_of_ok (on_get m), h]
  rfl

/-- Where the path leads to nothing, all goes on as with `--force`. -/
theorem replaceFile_unforced (h : m.tree.exists? path = false) :
    (replaceFile s path octets false).on m = (replaceFile s path octets true).on m := by
  rw [replaceFile, replaceFile, on_bind_of_ok (on_get m), on_bind_of_ok (on_get m), h]
  rfl

end Session

namespace Command

variable {s : Supplies} {output : String} {files : List String} {mtime : Option Nat}

/-! ## Tasks -/

theorem deliver_unforced {m : Machine} (h : m.tree.exists? (.ofText output) = false) (octets : Octets) :
    (deliver s output false octets).on m = (deliver s output true octets).on m := by
  rw [deliver, deliver]
  split
  · rfl
  · exact Session.replaceFile_unforced h

/-- Where the path of the output leads to nothing, compiling without `--force` is compiling with it. -/
theorem compileTask_unforced {invocation : Invocation} {m : Machine} (h : m.tree.exists? (.ofText output) = false) :
    (compileTask s invocation files output false mtime).on m = (compileTask s invocation files output true mtime).on m := by
  rw [compileTask, compileTask, Session.on_bind_of_ok (Session.on_get m), Session.on_bind_of_ok (Session.on_get m),
    Session.on_bind, Session.on_bind, Session.on_liftM]
  obtain ⟨notes, failure | artifact⟩ := produce m.tree invocation files "Compiling" "compilation failed" _
  · rfl
  · have hdeliver := deliver_unforced (s := s) (m := { m with notes := m.notes ++ notes }) h artifact.bytes
    simp only [Except.mapError, Session.on_bind, hdeliver]

/-! ## Runs -/

variable {arguments : List String} {verbose strict force : Bool} {config : Option String} {t : Tree}

/-- What a run that ends well has changed: a file is where the path of the output puts one, and nothing was there to be
    found unless `--force` was given. -/
theorem runWith_replaces {log : Option String} (hfile : output ≠ standardOutput)
    (hparse : Invocation.parse arguments = .ok ⟨verbose, config, strict, .compile files output force mtime⟩)
    (hexit : (runWith s log arguments t).exitCode = 0) :
    (force = false → t.exists? (.ofText output) = false) ∧ ∃ l name content, t.IsPlace (.ofText output) l name ∧
      (runWith s log arguments t).tree = t.insert (l ++ [name]) ⟨.file content, 0o600, 0⟩ := by
  rw [runWith_of_parse hparse] at hexit ⊢
  obtain ⟨m, hperformed⟩ := exists_of_concluded hexit
  obtain ⟨artifact, m₁, -, hdelivered, rfl⟩ := compileTask_eq_ok_iff.1 hperformed
  rw [hperformed]
  rw [deliver, if_neg hfile] at hdelivered
  constructor
  · rintro rfl
    cases hexists : t.exists? (.ofText output) with
    | false => rfl
    | true => cases hdelivered.symm.trans (Session.replaceFile_refused hexists)
  · obtain ⟨_, hfailed⟩ | ⟨l, name, hplace, hdone⟩ := Session.replaceFile_cases s (.ofText output) artifact.bytes force _
    · cases hdelivered.symm.trans hfailed
    · cases hdelivered.symm.trans hdone
      exact ⟨l, name, artifact.bytes, hplace, rfl⟩

/-- A run of `compile` without `--force`. What stands anywhere still stands there afterwards, but for a link at the path
    of the output that leads to nothing. If anything else stands at that path, the run fails and nothing has changed; if
    it is such a link, the run is the one with `--force`, and one that ends well has put a file in its place. -/
theorem runWith_spares (s : Supplies) (log : Option String) (t : Tree) (hfile : output ≠ standardOutput)
    (hparse : Invocation.parse arguments = .ok ⟨verbose, config, strict, .compile files output false mtime⟩) :
    (∀ l i, t.inode? l = some i → (runWith s log arguments t).tree.inode? l = some i ∨
      t.locate false (.ofText output) = .ok l ∧ t.LeadsNowhere (.ofText output)) ∧
    (∀ l i, t.Names (.ofText output) l → t.inode? l = some i → ¬t.LeadsNowhere (.ofText output) →
      (runWith s log arguments t).exitCode ≠ 0 ∧ (runWith s log arguments t).tree = t) ∧
    (t.LeadsNowhere (.ofText output) →
      (∀ arguments', Invocation.parse arguments' = .ok ⟨verbose, config, strict, .compile files output true mtime⟩ →
        runWith s log arguments t = runWith s log arguments' t) ∧
      ((runWith s log arguments t).exitCode = 0 → ∃ l content, t.locate false (.ofText output) = .ok l ∧
        (runWith s log arguments t).tree.inode? l = some ⟨.file content, 0o600, 0⟩)) := by
  refine ⟨fun l i hi => ?_, fun l i hnames hi hsomewhere => ?_, fun hnowhere => ⟨fun arguments' hforced => ?_, fun hexit => ?_⟩⟩
  · -- A run that fails has changed nothing, and one that ends well has changed one location only.
    by_cases hexit : (runWith s log arguments t).exitCode = 0
    · obtain ⟨hmissing, l', name, content, hplace, htree⟩ := runWith_replaces hfile hparse hexit
      rw [htree]
      by_cases heq : l = l' ++ [name]
      · have hentry := hplace.locate_eq_ok_iff.2 ⟨heq, by rw [← heq, hi]; rfl⟩
        refine .inr ⟨hentry, Classical.byContradiction fun hsomewhere => ?_⟩
        cases (hmissing rfl).symm.trans (Tree.exists?_of_entry hentry hi hsomewhere)
      · exact .inl ((Tree.inode?_insert_of_ne heq).trans hi)
    · rw [runWith_failed hexit]
      exact .inl hi
  · have hexit : (runWith s log arguments t).exitCode ≠ 0 := by
      intro hexit
      obtain ⟨hmissing, l', name, content, hplace, -⟩ := runWith_replaces hfile hparse hexit
      cases (hmissing rfl).symm.trans (Tree.exists?_of_entry (hplace.locate_of_names hnames hi) hi hsomewhere)
    exact ⟨hexit, runWith_failed hexit⟩
  · obtain ⟨-, -, -, -, -, hmissing⟩ := hnowhere
    rw [runWith_of_parse hparse, runWith_of_parse hforced]
    exact congrArg (concluded _) (compileTask_unforced hmissing)
  · obtain ⟨l, i, hentry, -⟩ := hnowhere
    obtain ⟨-, l', name, content, hplace, htree⟩ := runWith_replaces hfile hparse hexit
    obtain ⟨rfl, -⟩ := hplace.locate_eq_ok_iff.1 hentry
    exact ⟨_, content, hentry, by rw [htree, Tree.inode?_insert_self]⟩

/-- A manifest and two links, the one at the path of the output leading to the other. -/
def hatch : Tree :=
  (depot.insert [utf8 "depot.tar"] ⟨.symlink (utf8 "next"), 0o777, 0⟩).insert [utf8 "next"] ⟨.symlink (utf8 "last"), 0o777, 0⟩

/-- The links lead to a file: the run fails. -/
theorem hatch_spares : let t := hatch.insert [utf8 "last"] ⟨.file [1], 0o644, 0⟩
    (runWith ⟨[utf8 "a1"], none, .endless⟩ none depotLine t).exitCode ≠ 0 ∧
    (runWith ⟨[utf8 "a1"], none, .endless⟩ none depotLine t).tree = t := by
  intro t
  have hentry : t.locate false (.ofText "depot.tar") = .ok [utf8 "depot.tar"] := by cbv
  have hi : t.inode? [utf8 "depot.tar"] = some ⟨.symlink (utf8 "next"), 0o777, 0⟩ := by cbv
  have hexists : t.exists? (.ofText "depot.tar") = true := by cbv
  have hsomewhere : ¬t.LeadsNowhere (.ofText "depot.tar") := by
    rintro ⟨-, -, -, -, -, hmissing⟩
    cases hexists.symm.trans hmissing
  exact (runWith_spares _ none t (by decide) parse_depotLine).2.1 _ _ (.inl hentry) hi hsomewhere

/-- The links lead to nothing: the run ends well, and the archive stands where the first one was. -/
theorem hatch_isReplaced :
    hatch.linkStatus (.ofText "depot.tar") = .ok ⟨.symlink (utf8 "next"), 0o777, 0⟩ ∧
    Invocation.parse depotLine = .ok ⟨false, none, false, .compile ["depot.toml"] "depot.tar" false none⟩ ∧
    (runWith ⟨[utf8 "a1"], none, .endless⟩ none depotLine hatch).exitCode = 0 ∧
    ∃ content, (runWith ⟨[utf8 "a1"], none, .endless⟩ none depotLine hatch).tree.linkStatus (.ofText "depot.tar") =
      .ok ⟨.file content, 0o600, 0⟩ := by
  have hdone : (runWith ⟨[utf8 "a1"], none, .endless⟩ none depotLine hatch).exitCode = 0 := by
    obtain ⟨notes, a, b, rest, hexit, -⟩ := runWith_depot (t := hatch) parse_depotLine (by cbv) (by cbv)
      ⟨[utf8 "a1"], none, .endless⟩
    rw [hexit]
    cbv
  have hplaced : hatch.nameAt (.ofText "depot.tar") = .ok ([], utf8 "depot.tar") := by cbv
  obtain ⟨-, l, name, content, hplace, htree⟩ := runWith_replaces (by decide) parse_depotLine hdone
  cases hplace.nameAt.symm.trans hplaced
  refine ⟨by cbv, parse_depotLine, hdone, content, ?_⟩
  rw [htree]
  cbv

end Command

end Provision
