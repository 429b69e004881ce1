import Provision.Command.Run
import Provision.Proofs.Note
import Provision.Proofs.Archive.RoundTrip
import Provision.Proofs.Command.Arguments
import Provision.Proofs.Command.Session

/-! # Runs change all or nothing

A run that fails leaves no file behind: what it read it only read, and a file that is not in its place in the end is gone.
It prints nothing before everything else that can fail has been done, so that where something has been printed it is
standard output that had no room for the rest. A run of `compile` that ends well has put what it compiled in the one place
that was named.

* `produce_result_iff` — what is made of manifests, from the tree alone.
* `deliver_cases` — an archive put in its place.
* `compileTask_eq_ok_iff` — a command that ends well; `compileTask_error`, `perform_error` — one that fails.
* `runWith_failed` — a run that fails; `runWith_compile` — the statement.
-/

namespace Provision

namespace Command

theorem loadManifest_result_iff {t : Tree} {file : String} {m : Manifest} :
    (loadManifest t file).result = .ok m ↔ (Manifest.load t (.ofText file)).result = .ok m := by
  simp [loadManifest, explain, Except.bind_eq_ok_iff, Except.mapError_eq_ok_iff, Except.map]

/-- Settings and manifests are what the tree says, manifests in the order in which they are named. -/
theorem setup_result_iff {t : Tree} {invocation : Invocation} {files : List String} {start : Setup} :
    (setup t invocation files).result = .ok start ↔ settings t invocation.config = .ok start.settings ∧
      List.Forall₂ (fun file m => (Manifest.load t (.ofText file)).result = .ok m) files start.manifests ∧
      (if invocation.strict then .strict else start.settings.strictness) = start.strictness := by
  obtain ⟨found, strictness, manifests⟩ := start
  simp [setup, explain, stage, inform, Except.bind_eq_ok_iff, Except.map, Traced.result_mapM, loadManifest_result_iff]

@[simp]
theorem result_warn (warnings : List Warning) : (warn warnings).result = .ok () := by
  induction warnings with
  | nil => rfl
  | cons w rest ih =>
    exact (Traced.result_bind ..).trans ih

/-- What is made of manifests is their compilation. -/
theorem produce_result_iff {t : Tree} {invocation : Invocation} {files : List String} {heading context : String}
    {backend : Settings → Backend} {artifact : Artifact} :
    (produce t invocation files heading context backend).result = .ok artifact ↔
      ∃ start, (setup t invocation files).result = .ok start ∧
        compile start.strictness (backend start.settings) (declarationsOf start.manifests) = .ok artifact := by
  simp [produce, stage, tracedCompile, Except.bind_eq_ok_iff, Except.mapError_eq_ok_iff, Except.map]

/-! ## Commands -/

/-- What is printed and which tree is left where octets have been put in a place and nothing else has changed: they are
    printed, or they are a file of their own at the location that is named. -/
structure IsPlaced (t : Tree) (output : String) (octets printed : Octets) (left : Tree) : Prop where
  of_standardOutput : output = standardOutput → printed = octets ∧ left = t
  of_file : output ≠ standardOutput → printed = [] ∧ ∃ l name, t.nameAt (.ofText output) = .ok (l, name) ∧
    left.inode? (l ++ [name]) = some ⟨.file octets, 0o600, 0⟩ ∧
    (∀ i, t.inode? (l ++ [name]) = some i → i.isDirectory = false) ∧
    ∀ l', l' ≠ l ++ [name] → left.inode? l' = t.inode? l'

/-- Whether standard output has taken only a part of some octets. -/
def IsTorn (outlet : Outlet) (octets printed : Octets) : Prop :=
  ∃ room, outlet.room = some room ∧ room < octets.length ∧ printed = octets.take room

/-- What is left where octets have not been put in their place: the tree as it was, and nothing is printed but what
    standard output took of them. -/
structure IsUnplaced (s : Supplies) (t : Tree) (output : String) (octets printed : Octets) (left : Tree) : Prop where
  tree : left = t
  printed : printed = [] ∨ output = standardOutput ∧ IsTorn s.outlet octets printed

/-- An archive is put in its place, or all is as it was but for what has been printed. -/
theorem deliver_cases (s : Supplies) (output : String) (force : Bool) (octets : Octets) {m : Machine}
    (silent : m.printed = []) :
    (∃ stop m', (deliver s output force octets).on m = (.error stop, m') ∧
      IsUnplaced s m.tree output octets m'.printed m'.tree) ∨
    ∃ m', (deliver s output force octets).on m = (.ok (), m') ∧ IsPlaced m.tree output octets m'.printed m'.tree := by
  rw [deliver]
  split
  · rename_i heq
    obtain ⟨hlacks, hcut⟩ | hall := Session.print_cases s.outlet (Session.unwritten "writing archive to stdout") octets m
    · rw [silent, List.nil_append] at hlacks hcut
      obtain ⟨room, hroom, hlt, hpart⟩ := Room.lacks_iff.1 hlacks
      exact .inl ⟨_, _, hcut, rfl, .inr ⟨heq, room, hroom, hlt, hpart⟩⟩
    · rw [silent, List.nil_append] at hall
      exact .inr ⟨_, hall, fun _ => ⟨rfl, rfl⟩, fun hne => absurd heq hne⟩
  · rename_i hne
    obtain ⟨stop, hfailed⟩ | ⟨l, name, hplace, hdone⟩ := Session.replaceFile_cases s (.ofText output) octets force m
    · exact .inl ⟨stop, m, hfailed, rfl, .inl silent⟩
    · refine .inr ⟨_, hdone, fun heq => absurd heq hne, fun _ =>
        ⟨silent, l, name, hplace.nameAt, ?_, fun i hi => ?_, fun l' hl' => ?_⟩⟩
      · exact Tree.inode?_insert_self ..
      · exact Tree.not_isDirectory_of_nameFault? hplace.nameFault hi
      · exact Tree.inode?_insert_of_ne hl'

theorem deliver_error {s : Supplies} {output : String} {force : Bool} {octets : Octets} {m m' : Machine} {stop : Stop}
    (silent : m.printed = []) (h : (deliver s output force octets).on m = (.error stop, m')) :
    IsUnplaced s m.tree output octets m'.printed m'.tree := by
  obtain ⟨_, _, hfailed, hunplaced⟩ | ⟨_, hdone, -⟩ := deliver_cases s output force octets silent
  · cases hfailed.symm.trans h
    exact hunplaced
  · cases hdone.symm.trans h

theorem isPlaced_of_deliver {s : Supplies} {output : String} {force : Bool} {octets : Octets} {m m' : Machine}
    (silent : m.printed = []) (h : (deliver s output force octets).on m = (.ok (), m')) :
    IsPlaced m.tree output octets m'.printed m'.tree := by
  obtain ⟨_, _, hfailed, -⟩ | ⟨_, hdone, hplaced⟩ := deliver_cases s output force octets silent
  · cases hfailed.symm.trans h
  · cases hdone.symm.trans h
    exact hplaced

/-- Where compiling succeeds, it has delivered what it made of the manifests, and for the rest only said something. -/
theorem compileTask_eq_ok_iff {s : Supplies} {invocation : Invocation} {files : List String} {output : String}
    {force : Bool} {mtime : Option Nat} {m m' : Machine} :
    let produced := produce m.tree invocation files "Compiling" "compilation failed" fun settings =>
      .archive (archiveOptions settings mtime)
    (compileTask s invocation files output force mtime).on m = (.ok (), m') ↔ ∃ artifact m₁,
      produced.result = .ok artifact ∧
      (deliver s output force artifact.bytes).on { m with notes := m.notes ++ produced.notes } = (.ok (), m₁) ∧
      m' = { m₁ with notes := m₁.notes ++ (inform s!"sha256 {artifact.fingerprint}").notes ++
        (finish s!"wrote {artifact.bytes.length} bytes to {output}" artifact.warnings).notes } := by
  intro produced
  rw [compileTask, Session.on_bind_of_ok (Session.on_get m), Session.on_bind_eq_ok_iff]
  simp only [Session.on_liftM, Session.on_bind_eq_ok_iff, Prod.mk.injEq, Except.mapError_eq_ok_iff]
  constructor
  · rintro ⟨artifact, _, ⟨hproduced, rfl⟩, _, m₁, hdelivered, _, _, ⟨-, rfl⟩, -, rfl⟩
    exact ⟨artifact, m₁, hproduced, hdelivered, rfl⟩
  · rintro ⟨artifact, m₁, hproduced, hdelivered, rfl⟩
    exact ⟨artifact, _, ⟨hproduced, rfl⟩, (), m₁, hdelivered, (), _, ⟨rfl, rfl⟩, rfl, rfl⟩

/-- Once the manifests are compiled, compiling ends as putting the archive in its place does, and for the rest only says
    something. -/
theorem compileTask_of_produced {s : Supplies} {invocation : Invocation} {files : List String} {output : String}
    {force : Bool} {mtime : Option Nat} {m m₁ : Machine} {notes : List Note} {artifact : Artifact}
    {result : Except Stop Unit}
    (hproduced : produce m.tree invocation files "Compiling" "compilation failed" (fun settings =>
      .archive (archiveOptions settings mtime)) = ⟨notes, .ok artifact⟩)
    (hdelivered : (deliver s output force artifact.bytes).on { m with notes := m.notes ++ notes } = (result, m₁)) :
    ∃ said, (compileTask s invocation files output force mtime).on m =
      (result, { m₁ with notes := m₁.notes ++ said }) := by
  rw [compileTask, Session.on_bind_of_ok (Session.on_get m), hproduced, Session.on_bind_of_ok (Session.on_liftM ..)]
  cases result with
  | error stop =>
    rw [Session.on_bind_of_error hdelivered]
    exact ⟨[], by rw [List.append_nil]⟩
  | ok =>
    rw [Session.on_bind_of_ok hdelivered]
    exact ⟨_, congrArg (fun notes => (_, { m₁ with notes })) (List.append_assoc ..)⟩

/-- Where compiling fails, the tree is as it was, and nothing has been printed but a part of the archive for which
    standard output had no room. -/
theorem compileTask_error {s : Supplies} {invocation : Invocation} {files : List String} {output : String} {force : Bool}
    {mtime : Option Nat} {m m' : Machine} {stop : Stop} (silent : m.printed = [])
    (h : (compileTask s invocation files output force mtime).on m = (.error stop, m')) :
    m'.tree = m.tree ∧ (m'.printed = [] ∨ ∃ artifact, (produce m.tree invocation files "Compiling" "compilation failed"
        (fun settings => .archive (archiveOptions settings mtime))).result = .ok artifact ∧
      output = standardOutput ∧ IsTorn s.outlet artifact.bytes m'.printed) := by
  simp only [compileTask, Session.on_bind_of_ok (Session.on_get m), Session.on_bind_eq_error_iff, Session.on_liftM,
    Prod.mk.injEq, Except.mapError_eq_ok_iff] at h
  obtain ⟨-, rfl⟩ | ⟨artifact, _, ⟨hproduced, rfl⟩, h | ⟨_, _, -, h⟩⟩ := h
  · exact ⟨rfl, .inl silent⟩
  · obtain ⟨htree, hprinted⟩ := deliver_error (m := { m with notes := m.notes ++ _ }) silent h
    exact ⟨htree, hprinted.imp_right fun htorn => ⟨artifact, hproduced, htorn⟩⟩
  · -- Only notes follow, and they never fail.
    obtain ⟨⟨⟩, -⟩ | ⟨_, _, -, ⟨⟩, -⟩ := h

theorem print_error {outlet : Outlet} {refused : HostFault → Stop} {octets : Octets} {m m' : Machine} {stop : Stop}
    (h : (Session.print outlet refused octets).on m = (.error stop, m')) : m'.tree = m.tree := by
  obtain ⟨-, hcut⟩ | hall := Session.print_cases outlet refused octets m
  · cases hcut.symm.trans h
    rfl
  · cases hall.symm.trans h

theorem planTask_error {s : Supplies} {invocation : Invocation} {files : List String} {json : Bool} {m m' : Machine}
    {stop : Stop} (h : (planTask s invocation files json).on m = (.error stop, m')) : m'.tree = m.tree := by
  rw [planTask, Session.on_bind_of_ok (Session.on_get _), Session.on_bind_eq_error_iff, Session.on_liftM] at h
  obtain h | ⟨artifact, m₁, hproduced, h⟩ := h
  · obtain ⟨-, rfl⟩ := Prod.mk.inj h
    rfl
  · obtain ⟨-, rfl⟩ := Prod.mk.inj hproduced
    obtain h | ⟨_, m₂, -, h⟩ := Session.on_bind_eq_error_iff.1 h
    · exact (print_error h :)
    · cases h

/-- A command that fails leaves the tree as it was. -/
theorem perform_error {s : Supplies} {invocation : Invocation} {t : Tree} {stop : Stop} {m : Machine}
    (h : (perform s invocation).on (.start t) = (.error stop, m)) : m.tree = t := by
  rw [perform] at h
  cases htask : invocation.task with
  | compile files output force mtime =>
    rw [htask] at h
    exact (compileTask_error rfl h).1
  | plan files json =>
    rw [htask] at h
    exact planTask_error h
  | completions shell =>
    rw [htask] at h
    cases h
  | version =>
    rw [htask] at h
    exact print_error h

/-! ## Runs -/

theorem runWith_of_parse {arguments : List String} {invocation : Invocation}
    (hparse : Invocation.parse arguments = .ok invocation) (s : Supplies) (log : Option String) (t : Tree) :
    runWith s log arguments t = concluded (.choose log invocation.verbose) ((perform s invocation).on (.start t)) := by
  rw [runWith, hparse]

theorem exists_of_concluded {filter : Filter} {ended : Except Stop Unit × Machine}
    (h : (concluded filter ended).exitCode = 0) : ∃ m, ended = (.ok (), m) := by
  obtain ⟨stop | _, m⟩ := ended
  · exact absurd h stop.exitCode_ne_zero
  · exact ⟨m, rfl⟩

theorem exists_of_concluded_ne {filter : Filter} {ended : Except Stop Unit × Machine}
    (h : (concluded filter ended).exitCode ≠ 0) : ∃ stop m, ended = (.error stop, m) := by
  obtain ⟨stop | _, m⟩ := ended
  · exact ⟨stop, m, rfl⟩
  · exact absurd rfl h

/-- A run that fails leaves the tree as it was. -/
theorem runWith_failed {s : Supplies} {log : Option String} {arguments : List String} {t : Tree}
    (h : (runWith s log arguments t).exitCode ≠ 0) : (runWith s log arguments t).tree = t := by
  cases hparse : Invocation.parse arguments with
  | error refusal =>
    rw [runWith, hparse]
    cases refusal <;> rfl
  | ok invocation =>
    rw [runWith_of_parse hparse] at h ⊢
    obtain ⟨stop, m, hended⟩ := exists_of_concluded_ne h
    rw [hended]
    exact perform_error hended

/-- A command line that makes no sense prints nothing. -/
theorem runWith_refused {s : Supplies} {log : Option String} {arguments : List String} {t : Tree} {refusal : Refusal}
    (hparse : Invocation.parse arguments = .error refusal) (h : (runWith s log arguments t).exitCode ≠ 0) :
    (runWith s log arguments t).printed = [] := by
  rw [runWith, hparse] at h ⊢
  cases refusal with
  | usage => rfl
  | help => exact absurd rfl h
  | version => exact absurd rfl h

/-- What a command line of `compile` asks for and what is made of it, where options may stand before the command and
    after it. -/
def Makes (before after : Arguments) (t : Tree) (output : String) (artifact : Artifact) : Prop :=
  ∃ settings manifests mtime, after.setting? .output = some output ∧
    Command.settings t ((after.setting? .config).or (before.setting? .config)) = .ok settings ∧
    List.Forall₂ (fun file m => (Manifest.load t (.ofText file)).result = .ok m) after.operands manifests ∧
    (∀ value, after.setting? .mtime = some value → word64OfText? value = some mtime) ∧
    (after.setting? .mtime = none → mtime = settings.mtime) ∧
    compile (if .strict ∈ before.flags ∨ .strict ∈ after.flags ∨ settings.strict then .strict else .lenient)
      (.archive ⟨mtime⟩) (declarationsOf manifests) = .ok artifact

theorem makes_of_produced {before after : Arguments} {rest : List String} {next : Option (String × List String)}
    {t : Tree} {output : String} {task : Task} {verbose : Bool} {artifact : Artifact}
    (hlevel : scan (Invocation.inner "compile") .empty none rest = .ok (after, next))
    (houtput : after.setting? .output = some output)
    (hproduced : (produce t ⟨verbose, (after.setting? .config).or (before.setting? .config),
        .strict ∈ before.flags || .strict ∈ after.flags, task⟩ after.operands "Compiling" "compilation failed"
      fun settings => .archive (archiveOptions settings ((after.setting? .mtime).bind word64OfText?))).result =
        .ok artifact) : Makes before after t output artifact := by
  obtain ⟨start, hsetup, hcompile⟩ := produce_result_iff.1 hproduced
  obtain ⟨hsettings, hmanifests, hstrictness⟩ := setup_result_iff.1 hsetup
  have hpolicy : start.strictness = if .strict ∈ before.flags ∨ .strict ∈ after.flags ∨ start.settings.strict
      then .strict else .lenient := by
    rw [← hstrictness, Settings.strictness]
    grind
  rw [hpolicy] at hcompile
  cases hmtime : after.setting? .mtime with
  | none =>
    rw [hmtime] at hcompile
    exact ⟨start.settings, start.manifests, start.settings.mtime, houtput, hsettings, hmanifests,
      (by rw [hmtime]; nofun), fun _ => rfl, hcompile⟩
  | some value =>
    -- A value that is no time would have been refused when the line was read.
    have haccepted := accepts_of_scan inner_compile_isVersionless hlevel hmtime
    obtain ⟨mtime, hvalue⟩ := Option.isSome_iff_exists.1 haccepted
    rw [hmtime, Option.bind_some, hvalue] at hcompile
    refine ⟨start.settings, start.manifests, mtime, houtput, hsettings, hmanifests, fun value' hvalue' => ?_,
      (by rw [hmtime]; nofun), hcompile⟩
    rw [hmtime] at hvalue'
    cases hvalue'
    exact hvalue

/-- What a run of `compile` that ends well comes to: what was made is in its place. -/
def Compiles (before after : Arguments) (t : Tree) (o : Outcome) : Prop :=
  ∃ output artifact, Makes before after t output artifact ∧ IsPlaced t output artifact.bytes o.printed o.tree

/-- What a run of `compile` comes to where standard output has no room for what was made. -/
def Tears (outlet : Outlet) (before after : Arguments) (t : Tree) (o : Outcome) : Prop :=
  ∃ artifact, Makes before after t standardOutput artifact ∧ IsTorn outlet artifact.bytes o.printed

/-- A run that fails leaves the tree as it was. It prints nothing, unless it is one of `compile` that has compiled the
    manifests, was to print the archive and did so as far as standard output took it. A run of `compile` that does not
    fail, unless it was asked for help, has compiled the manifests in the order in which they are named, by the settings
    and the options, and put the octets in the place that is named; nothing else has changed. -/
theorem runWith_compile (s : Supplies) (log : Option String) (arguments : List String) (t : Tree) :
    ((runWith s log arguments t).exitCode ≠ 0 → (runWith s log arguments t).tree = t) ∧
    (∀ refusal, Invocation.parse arguments = .error refusal → (runWith s log arguments t).exitCode ≠ 0 →
      (runWith s log arguments t).printed = []) ∧
    ∀ before rest, scan Invocation.outer .empty none arguments = .ok (before, some ("compile", rest)) →
      ((runWith s log arguments t).exitCode ≠ 0 → (runWith s log arguments t).printed = [] ∨
        ∃ after next, scan (Invocation.inner "compile") .empty none rest = .ok (after, next) ∧
          Tears s.outlet before after t (runWith s log arguments t)) ∧
      (Invocation.parse arguments ≠ .error .help → (runWith s log arguments t).exitCode = 0 →
        ∃ after next, scan (Invocation.inner "compile") .empty none rest = .ok (after, next) ∧
          Compiles before after t (runWith s log arguments t)) := by
  refine ⟨runWith_failed, fun _ => runWith_refused, fun before rest hcommand => ?_⟩
  obtain hparse | hparse | ⟨after, next, output, hlevel, houtput, verbose, hparse⟩ := parse_compile hcommand
  · exact ⟨fun hexit => .inl (runWith_refused hparse hexit), fun hhelp => absurd hparse hhelp⟩
  · refine ⟨fun hexit => .inl (runWith_refused hparse hexit), fun _ hexit => ?_⟩
    rw [runWith, hparse] at hexit
    cases hexit
  · rw [runWith_of_parse hparse]
    refine ⟨fun hexit => ?_, fun _ hexit => ?_⟩
    · obtain ⟨stop, m, hended⟩ := exists_of_concluded_ne hexit
      rw [hended]
      refine (compileTask_error rfl hended).2.imp_right ?_
      rintro ⟨artifact, hproduced, rfl, htorn⟩
      exact ⟨after, next, hlevel, artifact, makes_of_produced hlevel houtput hproduced, htorn⟩
    · obtain ⟨m, hended⟩ := exists_of_concluded hexit
      rw [hended]
      obtain ⟨artifact, m₁, hproduced, hdelivered, rfl⟩ := compileTask_eq_ok_iff.1 hended
      exact ⟨after, next, hlevel, output, artifact, makes_of_produced hlevel houtput hproduced,
        isPlaced_of_deliver rfl hdelivered⟩

/-- A document that declares a file. -/
def depotText : String := "[[resource]]\nkind='file'\npath='/k'\ncontent='x'\n"

/-- A directory with the document as a manifest. -/
def depot : Tree := Tree.insert ⟨.empty, []⟩ [utf8 "depot.toml"] ⟨.file (utf8 depotText), 0o644, 0⟩

def depotLine : List String := ["compile", "depot.toml", "-o", "depot.tar"]

def depotInvocation (output : String) : Invocation := ⟨false, none, false, .compile ["depot.toml"] output false none⟩

theorem parse_depotLine : Invocation.parse depotLine = .ok (depotInvocation "depot.tar") := by cbv

/-- No archive is shorter than the blocks that end it. -/
theorem exists_of_bytes {options : ArchiveOptions} {sequence : Sequence} {octets : Octets}
    (h : (Backend.archive options).bytes sequence = .ok octets) : ∃ a b rest, octets = a :: b :: rest := by
  have hlength : 1024 ≤ octets.length := by
    rw [Backend.bytes] at h
    split at h
    · cases h
    · cases h
      have hclosing : Archive.closing.length = 1024 := List.length_replicate ..
      exact hclosing ▸ (closing_suffix_octets_pieces options sequence).length_le
  obtain ⟨a, tail, rfl⟩ := List.exists_cons_of_length_pos (show 0 < octets.length by omega)
  rw [List.length_cons] at hlength
  obtain ⟨b, rest, rfl⟩ := List.exists_cons_of_length_pos (show 0 < tail.length by omega)
  exact ⟨a, b, rest, rfl⟩

/-- What is made of the document, wherever it is found. -/
theorem produce_depot {t : Tree} (hsettings : settings t none = .ok .default)
    (htext : t.readText (.ofText "depot.toml") = .ok depotText) (output : String) :
    ∃ notes artifact, (∃ a b rest, artifact.bytes = a :: b :: rest) ∧
      produce t (depotInvocation output) ["depot.toml"] "Compiling" "compilation failed"
        (fun settings => .archive (archiveOptions settings none)) = ⟨notes, .ok artifact⟩ := by
  have hmade : ((Manifest.load t (.ofText "depot.toml")).result.toOption.bind fun m =>
      (resolve .lenient (declarationsOf [m])).toOption.map fun sequence =>
        ((Backend.archive ⟨0⟩).fault? sequence).isNone) = some true := by
    rw [Manifest.load, Tree.document, htext]
    cbv
  obtain ⟨m, hm, hresolved⟩ := Option.bind_eq_some_iff.1 hmade
  obtain ⟨sequence, hsequence, hfault⟩ := Option.map_eq_some_iff.1 hresolved
  have hload := Except.toOption_eq_some_iff.1 hm
  have hresolve := Except.toOption_eq_some_iff.1 hsequence
  obtain ⟨bytes, hbytes⟩ : ∃ bytes, (Backend.archive ⟨0⟩).bytes sequence = .ok bytes :=
    ⟨_, by rw [Backend.bytes, Option.isNone_iff_eq_none.1 hfault]⟩
  have hresult : (produce t (depotInvocation output) ["depot.toml"] "Compiling" "compilation failed" fun settings =>
      .archive (archiveOptions settings none)).result = .ok ⟨bytes, fingerprint bytes, sequence.warnings⟩ := by
    refine produce_result_iff.2 ⟨⟨.default, .lenient, [m]⟩, setup_result_iff.2 ⟨hsettings, .cons hload .nil, rfl⟩, ?_⟩
    change compile .lenient (.archive ⟨0⟩) (declarationsOf [m]) = _
    simp only [compile, hresolve, hbytes]
  exact ⟨_, ⟨bytes, _, _⟩, exists_of_bytes hbytes, congrArg (Traced.mk _) hresult⟩

/-- A run on the document ends as putting the archive in its place does. -/
theorem runWith_depot {t : Tree} {arguments : List String} {output : String}
    (hparse : Invocation.parse arguments = .ok (depotInvocation output)) (hsettings : settings t none = .ok .default)
    (htext : t.readText (.ofText "depot.toml") = .ok depotText) (s : Supplies) :
    ∃ notes a b rest,
      (runWith s none arguments t).exitCode =
        exitCode ((deliver s output false (a :: b :: rest)).on ⟨t, [], notes, none⟩).1 ∧
      (runWith s none arguments t).printed =
        ((deliver s output false (a :: b :: rest)).on ⟨t, [], notes, none⟩).2.printed := by
  obtain ⟨notes, artifact, ⟨a, b, rest, hbytes⟩, hproduced⟩ := produce_depot hsettings htext output
  obtain ⟨said, hended⟩ := compileTask_of_produced (s := s) (m := .start t) hproduced rfl
  refine ⟨notes, a, b, rest, ?_⟩
  have hperform : perform s (depotInvocation output) =
      compileTask s (depotInvocation output) ["depot.toml"] output false none := rfl
  rw [runWith_of_parse hparse, hperform, hended, ← hbytes]
  exact ⟨rfl, rfl⟩

theorem readText_depot : depot.readText (.ofText "depot.toml") = .ok depotText := by cbv

theorem settings_depot : settings depot none = .ok .default := by cbv

/-- The archive is written where there is room for it; where there is not, what was written of it is gone. -/
theorem depot_compiles :
    (runWith ⟨[utf8 "a1"], none, .endless⟩ none depotLine depot).exitCode = 0 ∧
    (∃ after next, scan (Invocation.inner "compile") .empty none ["depot.toml", "-o", "depot.tar"] = .ok (after, next) ∧
      Compiles .empty after depot (runWith ⟨[utf8 "a1"], none, .endless⟩ none depotLine depot)) ∧
    (runWith ⟨[utf8 "a1"], some 1, .endless⟩ none depotLine depot).exitCode = 1 ∧
    (runWith ⟨[utf8 "a1"], some 1, .endless⟩ none depotLine depot).tree = depot := by
  have hdone : (runWith ⟨[utf8 "a1"], none, .endless⟩ none depotLine depot).exitCode = 0 := by
    obtain ⟨notes, a, b, rest, hexit, -⟩ := runWith_depot parse_depotLine settings_depot readText_depot
      ⟨[utf8 "a1"], none, .endless⟩
    rw [hexit]
    cbv
  have hfailed : (runWith ⟨[utf8 "a1"], some 1, .endless⟩ none depotLine depot).exitCode = 1 := by
    obtain ⟨notes, a, b, rest, hexit, -⟩ := runWith_depot parse_depotLine settings_depot readText_depot
      ⟨[utf8 "a1"], some 1, .endless⟩
    rw [hexit]
    cbv
  have hcommand : scan Invocation.outer .empty none depotLine =
      .ok (.empty, some ("compile", ["depot.toml", "-o", "depot.tar"])) := by cbv
  have hhelp : Invocation.parse depotLine ≠ .error .help := by
    intro h
    cases parse_depotLine.symm.trans h
  exact ⟨hdone, ((runWith_compile _ none depotLine depot).2.2 _ _ hcommand).2 hhelp hdone, hfailed,
    (runWith_compile _ none depotLine depot).1 (by rw [hfailed]; decide)⟩

def depotPrinting : List String := ["compile", "depot.toml", "-o", "-"]

def depotVersion : List String := ["--version", "compile", "depot.toml", "-o", "depot.tar"]

/-- A run that fails has printed something where standard output took only a part of the archive, and one that does not
    fail has written no archive where it was asked for the version. -/
theorem depot_isTorn :
    (Invocation.parse depotPrinting = .ok ⟨false, none, false, .compile ["depot.toml"] "-" false none⟩ ∧
      (runWith ⟨[], none, ⟨some 1, .brokenPipe⟩⟩ none depotPrinting depot).exitCode = 1 ∧
      (runWith ⟨[], none, ⟨some 1, .brokenPipe⟩⟩ none depotPrinting depot).printed.length = 1) ∧
    (runWith ⟨[utf8 "a1"], none, .endless⟩ none depotVersion depot).exitCode = 0 ∧
    (runWith ⟨[utf8 "a1"], none, .endless⟩ none depotVersion depot).printed = utf8 versionLine ∧
    (runWith ⟨[utf8 "a1"], none, .endless⟩ none depotVersion depot).tree.exists? (.ofText "depot.tar") = false := by
  have hparse : Invocation.parse depotPrinting = .ok (depotInvocation "-") := by cbv
  obtain ⟨notes, a, b, rest, hexit, hprinted⟩ := runWith_depot hparse settings_depot readText_depot
    ⟨[], none, ⟨some 1, .brokenPipe⟩⟩
  have hversion : Invocation.parse depotVersion = .error .version := by cbv
  refine ⟨⟨hparse, ?_, ?_⟩, ?_⟩
  · rw [hexit]
    cbv
  · rw [hprinted]
    cbv
  · rw [runWith, hversion]
    exact ⟨rfl, rfl, by cbv⟩

end Command

end Provision
