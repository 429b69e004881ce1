import Provision.Command.Arguments

/-! # Levels of a command line

What a level of a command line can come to. The values of options are looked at as they are read, so those that are
there in the end are all acceptable, and a level on which no option asks for the version never refuses for that reason.

* `Arguments.IsAccepted` — every value is acceptable.
* `Proper` — a level is read to arguments like that, or refused for another reason than the version.
* `scan_proper` — the run; `takeLong_proper`, `takeShort_proper`, `foldlM_addOperand_proper` — its steps.
-/

namespace Provision

/-- Whether every option that has a value takes it. -/
def Arguments.IsAccepted (a : Arguments) : Prop := ∀ entry ∈ a.settings, entry.1.accepts entry.2

theorem Arguments.isAccepted_empty : Arguments.empty.IsAccepted := nofun

/-- Whether no option of a level asks for the version. -/
def Grammar.IsVersionless (g : Grammar) : Prop :=
  (∀ entry ∈ g.long, entry.2 ≠ .flag .version) ∧ ∀ entry ∈ g.short, entry.2 ≠ .flag .version

/-- Whether a reading comes to accepted arguments, or is refused for another reason than the version. -/
def Proper {α : Type} (arguments : α → Arguments) : Except Refusal α → Prop
  | .ok a => (arguments a).IsAccepted
  | .error refusal => refusal ≠ .version

variable {α β : Type} {g : Grammar} {a : Arguments}

theorem mem_of_lookup_eq_some [BEq α] [LawfulBEq α] {k : α} {v : β} {l : List (α × β)} (h : l.lookup k = some v) :
    (k, v) ∈ l := by
  obtain ⟨before, after, rfl, -⟩ := List.lookup_eq_some_iff.1 h
  simp

theorem Proper.bind {p : α → Arguments} {q : β → Arguments} {x : Except Refusal α} {f : α → Except Refusal β}
    (h : Proper p x) (hf : ∀ y, (p y).IsAccepted → Proper q (f y)) : Proper q (x >>= f) := by
  cases x with
  | error refusal => exact h
  | ok y => exact hf y h

theorem addFlag_proper {flag : Flag} (ha : a.IsAccepted) (hflag : flag ≠ .version) : Proper id (a.addFlag flag) := by
  cases flag <;> simp only [Arguments.addFlag]
  case version => exact absurd rfl hflag
  case help => simp [Proper]
  all_goals
    split
    · simp [Proper]
    · exact ha

theorem addSetting_proper {setting : Setting} {value : String} (ha : a.IsAccepted) :
    Proper id (a.addSetting setting value) := by
  rw [Arguments.addSetting]
  split
  · simp [Proper]
  · rename_i h
    rw [Bool.or_eq_true, not_or] at h
    intro entry hentry
    rcases List.mem_append.1 hentry with hentry | hentry
    · exact ha entry hentry
    · rw [List.mem_singleton.1 hentry]
      simpa using h.2

theorem addOperand_proper {operand : String} (ha : a.IsAccepted) : Proper id (a.addOperand g operand) := by
  rw [Arguments.addOperand]
  split
  · simp [Proper]
  · exact ha

theorem foldlM_addOperand_proper {operands : List String} (ha : a.IsAccepted) :
    Proper id (operands.foldlM (Arguments.addOperand g) a) := by
  induction operands generalizing a with
  | nil => exact ha
  | cons operand rest ih =>
    rw [List.foldlM_cons]
    exact (addOperand_proper ha).bind fun _ hnext => ih hnext

theorem takeLong_proper (hg : g.IsVersionless) {name : String} {value : Option String} (ha : a.IsAccepted) :
    Proper Prod.fst (takeLong g a name value) := by
  unfold takeLong
  split
  · rename_i flag hlookup
    exact (addFlag_proper ha fun h => hg.1 _ (mem_of_lookup_eq_some (h ▸ hlookup)) rfl).bind fun _ hnext => hnext
  · exact (addSetting_proper ha).bind fun _ hnext => hnext
  · exact ha
  · simp [Proper]
  · simp [Proper]

theorem takeShort_proper (hg : g.IsVersionless) {letters : List Char} (ha : a.IsAccepted) :
    Proper Prod.fst (takeShort g a letters) := by
  induction letters generalizing a with
  | nil => exact ha
  | cons letter rest ih =>
    unfold takeShort
    split
    · rename_i flag hlookup
      exact (addFlag_proper ha fun h => hg.2 _ (mem_of_lookup_eq_some (h ▸ hlookup)) rfl).bind fun _ hnext => ih hnext
    · exact ha
    · exact (addSetting_proper ha).bind fun _ hnext => hnext
    · exact (addSetting_proper ha).bind fun _ hnext => hnext
    · simp [Proper]

/-- Reading a level, whatever has been read of it. -/
theorem scan_proper (hg : g.IsVersionless) {pending? : Option Setting} {arguments : List String} (ha : a.IsAccepted) :
    Proper Prod.fst (scan g a pending? arguments) := by
  induction arguments generalizing a pending? with
  | nil =>
    unfold scan
    split
    · simp [Proper]
    · exact ha
  | cons argument rest ih =>
    unfold scan
    split
    · exact (addSetting_proper ha).bind fun _ hnext => ih hnext
    · simp [Proper]
    · split
      · exact ha
      · exact (addOperand_proper ha).bind fun _ hnext => ih hnext
    · exact (foldlM_addOperand_proper ha).bind fun _ hnext => hnext
    · exact (takeLong_proper hg ha).bind fun _ hnext => ih hnext
    · exact (takeShort_proper hg ha).bind fun _ hnext => ih hnext

theorem scan_ne_version (hg : g.IsVersionless) (arguments : List String) :
    scan g .empty none arguments ≠ .error .version := by
  intro h
  have hproper : Proper Prod.fst (scan g .empty none arguments) := scan_proper hg Arguments.isAccepted_empty
  rw [h] at hproper
  exact hproper rfl

/-- A value on a level that was read is acceptable. -/
theorem accepts_of_scan (hg : g.IsVersionless) {arguments : List String} {level : Scanned}
    (h : scan g .empty none arguments = .ok level) {setting : Setting} {value : String}
    (hvalue : level.1.setting? setting = some value) : setting.accepts value := by
  have hproper : Proper Prod.fst (scan g .empty none arguments) := scan_proper hg Arguments.isAccepted_empty
  rw [h] at hproper
  exact hproper _ (mem_of_lookup_eq_some hvalue)

/-! ## Compiling -/

theorem inner_compile_isVersionless : (Invocation.inner "compile").IsVersionless := by
  simp [Grammar.IsVersionless, Invocation.inner, Invocation.commonLong, Invocation.commonShort]

theorem taskOf_compile_cases (a : Arguments) : Invocation.taskOf "compile" a = .error .usage ∨
    ∃ output, a.setting? .output = some output ∧ Invocation.taskOf "compile" a = .ok
      (.compile a.operands output (.force ∈ a.flags) ((a.setting? .mtime).bind word64OfText?)) := by
  unfold Invocation.taskOf
  split
  case h_1 => exact .inr ⟨_, ‹_›, rfl⟩
  case h_5 => exact .inl rfl
  -- The other commands have other names.
  all_goals
    rename_i hname _
    exact absurd hname (by decide)

/-- What a command line of `compile` is read to, where it makes sense and does not ask for help. -/
theorem parse_compile {arguments rest : List String} {before : Arguments}
    (hcommand : scan Invocation.outer .empty none arguments = .ok (before, some ("compile", rest))) :
    Invocation.parse arguments = .error .help ∨ Invocation.parse arguments = .error .usage ∨
      ∃ after next output, scan (Invocation.inner "compile") .empty none rest = .ok (after, next) ∧
        after.setting? .output = some output ∧
        ∃ verbose, Invocation.parse arguments = .ok ⟨verbose, (after.setting? .config).or (before.setting? .config),
          .strict ∈ before.flags || .strict ∈ after.flags,
          .compile after.operands output (.force ∈ after.flags) ((after.setting? .mtime).bind word64OfText?)⟩ := by
  have hparse : Invocation.parse arguments = (do
      let level ← scan (Invocation.inner "compile") .empty none rest
      let task ← Invocation.taskOf "compile" level.1
      return ⟨.verbose ∈ before.flags || .verbose ∈ level.1.flags,
        (level.1.setting? .config).or (before.setting? .config),
        .strict ∈ before.flags || .strict ∈ level.1.flags, task⟩) := by
    rw [Invocation.parse, hcommand]
    rfl
  cases hlevel : scan (Invocation.inner "compile") .empty none rest with
  | error refusal =>
    rw [hparse, hlevel]
    cases refusal with
    | usage => exact .inr (.inl rfl)
    | help => exact .inl rfl
    | version => exact absurd hlevel (scan_ne_version inner_compile_isVersionless rest)
  | ok level =>
    obtain ⟨after, next⟩ := level
    rw [hlevel] at hparse
    obtain htask | ⟨output, houtput, htask⟩ := taskOf_compile_cases after
    · simp only [bind, Except.bind, htask] at hparse
      exact .inr (.inl hparse)
    · simp only [bind, Except.bind, htask] at hparse
      exact .inr (.inr ⟨after, next, output, rfl, houtput, _, hparse⟩)

end Provision
