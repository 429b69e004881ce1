import Mathlib.Data.List.DropRight
import Provision.Manifest.Conversion
import Provision.Proofs.Hierarchy
import Provision.Proofs.Mode
import Provision.Proofs.Note

/-! # Placed matches

A table with a pattern places an entry for each match whose target nothing else has. Targets are compared as paths,
however they are spelled: the prefix of the table without its last separators, or as it stands.

* `parse_matchPath` — the target of a match is the path of the table with the way of the match.
* `ModeSpelling.Means`, `ResourceTable.modeOf_eq_ok_iff` — which mode a table spells.
* `Prevails` — what is declared wins over what the host has; `ResourceTable.resource_eq_ok`.
* `IsMatches` — the matches of a pattern; `Tree.isMatches_of_search`.
* `unclaimed` — the matches that are kept; `ResourceTable.placeMatches_eq_ok` — they are what is placed.
-/

namespace Provision

/-! ## Targets -/

namespace TargetPath

/-- A path is spelled by its segments, but for the faults of a text. -/
theorem parse_congr {a b : String} (hempty : a.toList = [] ↔ b.toList = []) (hhead : a.toList.head? = b.toList.head?)
    (hnul : '\x00' ∈ a.toList ↔ '\x00' ∈ b.toList) (hsegments : rawSegments a = rawSegments b) : parse a = parse b := by
  rw [parse, parse, hhead]
  by_cases hnone : a.toList = []
  · rw [if_pos hnone, if_pos (hempty.1 hnone)]
  · rw [if_neg hnone, if_neg (hempty.not.1 hnone)]
    split
    · rfl
    · by_cases hzero : '\x00' ∈ a.toList
      · rw [dif_pos hzero, dif_pos (hnul.1 hzero)]
      · rw [dif_neg hzero, dif_neg (hnul.not.1 hzero)]
        by_cases hup : ".." ∈ rawSegments a
        · rw [dif_pos hup, dif_pos (hsegments ▸ hup)]
        · rw [dif_neg hup, dif_neg (hsegments ▸ hup)]
          exact congrArg Except.ok (ext hsegments)

/-- The names that a text holds between separators. -/
def names (text : List Char) : List String := (pieces '/' text).map String.ofList |>.filter fun s => s ≠ "" ∧ s ≠ "."

theorem names_append (a b : List Char) : names (a ++ '/' :: b) = names a ++ names b := by
  rw [names, pieces_append_sep_append, List.map_append, List.filter_append]
  rfl

theorem names_slashes {slashes : List Char} (h : ∀ c ∈ slashes, c = '/') (way : List Char) :
    names (slashes ++ '/' :: way) = names way := by
  induction slashes with
  | nil => exact names_append [] way
  | cons c rest ih =>
    rw [h c List.mem_cons_self, List.cons_append]
    exact (names_append [] _).trans (ih fun c hc => h c (List.mem_cons_of_mem _ hc))

theorem names_append_slashes (a : List Char) {slashes : List Char} (h : ∀ c ∈ slashes, c = '/') (way : List Char) :
    names (a ++ slashes ++ '/' :: way) = names (a ++ '/' :: way) := by
  cases slashes with
  | nil => rw [List.append_nil]
  | cons c rest =>
    rw [h c List.mem_cons_self, List.append_assoc, List.cons_append, names_append a (rest ++ _),
      names_slashes fun c hc => h c (List.mem_cons_of_mem _ hc), names_append]

end TargetPath

namespace ResourceTable

open TargetPath

/-- The target of a match is the path of the table with the way of the match, separators at the end of the former or
    not. -/
theorem parse_matchPath (table : ResourceTable) (way : String) :
    TargetPath.parse (table.matchPath way) = TargetPath.parse (table.path ++ "/" ++ way) := by
  have hslashes : ∀ c ∈ table.path.toList.rtakeWhile (· = '/'), c = '/' := fun c hc => by
    simpa using List.mem_rtakeWhile_imp hc
  have htrimmed : (table.matchPath way).toList = table.path.toList.rdropWhile (· = '/') ++ '/' :: way.toList := by
    simp [matchPath, List.rdropWhile]
  have hwhole : (table.path ++ "/" ++ way).toList =
      table.path.toList.rdropWhile (· = '/') ++ table.path.toList.rtakeWhile (· = '/') ++ '/' :: way.toList := by
    rw [List.rdropWhile_append_rtakeWhile]
    simp
  -- Nothing but separators is trimmed off, and there is one behind what is left in any case.
  generalize table.path.toList.rdropWhile (· = '/') = trimmed at htrimmed hwhole
  generalize table.path.toList.rtakeWhile (· = '/') = slashes at hslashes hwhole
  refine parse_congr ?_ ?_ ?_ ?_
  · simp [htrimmed, hwhole]
  · rw [htrimmed, hwhole]
    cases trimmed with
    | cons c rest => rfl
    | nil =>
      cases slashes with
      | nil => rfl
      | cons c rest =>
        rw [hslashes c List.mem_cons_self]
        rfl
  · have hzero : '\x00' ∉ slashes := fun hmem => by simpa using hslashes _ hmem
    simp [htrimmed, hwhole, hzero]
  · rw [rawSegments, rawSegments, htrimmed, hwhole]
    exact (names_append_slashes trimmed hslashes way.toList).symm

end ResourceTable

/-! ## Modes -/

/-- Whether a mode is what a table spells: the number as it stands, or the one that three or four octal digits write. -/
def ModeSpelling.Means : ModeSpelling → Mode → Prop
  | .bits number, mode => number = mode.bits ∧ mode.bits ≤ Mode.largest
  | .octal text, mode => (text.length = 3 ∨ text.length = 4) ∧ (∀ c ∈ text.toList, IsOctalDigit c) ∧
      mode.bits = Nat.ofDigitChars 8 text.toList 0

theorem ResourceTable.modeOf_eq_ok_iff {table : ResourceTable} {spelling : ModeSpelling} {mode : Mode} :
    table.modeOf spelling = .ok mode ↔ spelling.Means mode := by
  cases spelling with
  | bits number => exact Except.mapError_eq_ok_iff.trans Mode.ofInt_eq_ok_iff
  | octal text => exact Except.mapError_eq_ok_iff.trans Mode.parse_eq_ok_iff

/-! ## Entries of the host -/

/-- An entry of the host with what a table declares about it: what is declared wins. -/
structure Prevails (table : ResourceTable) (host spec : EntrySpec) : Prop where
  entry : spec.entry = host.entry
  mode : ∃ declared?, Option.Rel ModeSpelling.Means table.mode declared? ∧
    spec.permissions.mode = declared?.or host.permissions.mode
  owner : spec.permissions.owner = table.owner.or host.permissions.owner
  group : spec.permissions.group = table.group.or host.permissions.group
  mtime : spec.mtime = table.mtime.or host.mtime
  atime : spec.atime = table.atime.or host.atime

namespace ResourceTable

variable {t : Tree} {origin : Origin} {table : ResourceTable}

theorem permissions_eq_ok {permissions : Permissions} (h : table.permissions = .ok permissions) :
    Option.Rel ModeSpelling.Means table.mode permissions.mode ∧ permissions.owner = table.owner ∧
      permissions.group = table.group := by
  rw [ResourceTable.permissions] at h
  cases hspelling : table.mode with
  | none =>
    rw [hspelling] at h
    cases h
    exact ⟨.none, rfl, rfl⟩
  | some spelling =>
    rw [hspelling] at h
    obtain ⟨mode, hmode, hpermissions⟩ := Except.bind_eq_ok_iff.1 h
    cases hpermissions
    exact ⟨.some (modeOf_eq_ok_iff.1 hmode), rfl, rfl⟩

/-- What a table takes from the host is an entry of the host, with what is declared. -/
theorem resource_eq_ok {found? : Option HostPath} {resource : Resource} (hkind : table.kind = .fromHost)
    (h : table.resource t origin found? = .ok resource) :
    ∃ found host spec, found? = some found ∧ t.entrySpec found = .ok host ∧ Prevails table host spec ∧
      resource = .entry spec := by
  rw [ResourceTable.resource] at h
  obtain ⟨permissions, hpermissions, hrest⟩ := Except.bind_eq_ok_iff.1 h
  rw [hkind] at hrest
  obtain ⟨host, hhost, hentry⟩ := Except.bind_eq_ok_iff.1 hrest
  cases hentry
  simp only [ResourceTable.entrySpec, hkind] at hhost
  cases found? with
  | none => cases hhost
  | some found =>
    obtain ⟨hmode, howner, hgroup⟩ := permissions_eq_ok hpermissions
    refine ⟨found, host, table.declared permissions host, rfl, hhost,
      ⟨rfl, ⟨permissions.mode, hmode, rfl⟩, ?_, ?_, rfl, rfl⟩, rfl⟩
    · rw [← howner]
      rfl
    · rw [← hgroup]
      rfl

end ResourceTable

/-! ## Matches -/

/-- The matches of a pattern beneath a directory: what the search comes upon, each with its way from there, in the order
    of these ways and without the directory itself. -/
structure IsMatches (t : Tree) (root : HostPath) (pattern : String) (found : List (String × HostPath)) : Prop where
  sorted : found.Pairwise fun a b => (byteOrder a.1 b.1).isLE
  complete : ∃ rootText raw ways, textOf? root.octets = some rootText ∧
    Search.found t (Search.fullPattern rootText pattern) = .ok raw ∧
    List.Forall₂ (fun result way => ∃ path, result = .ok path ∧ Search.way root path = .ok way.1 ∧ way.2 = path) raw ways ∧
    found.Perm (ways.filter (·.1 ≠ ""))

theorem Search.placed_eq_ok {root : HostPath} {result : Search.Found} {way : String × HostPath}
    (h : Search.placed root result = .ok way) :
    ∃ path, result = .ok path ∧ Search.way root path = .ok way.1 ∧ way.2 = path := by
  cases result with
  | error fault => cases h
  | ok path =>
    obtain ⟨text, htext, hway⟩ := Except.bind_eq_ok_iff.1 h
    cases hway
    exact ⟨path, rfl, htext, rfl⟩

theorem Tree.isMatches_of_search {t : Tree} {root : HostPath} {pattern : String} {found : List (String × HostPath)}
    (h : t.search root pattern = .ok found) : IsMatches t root pattern found := by
  rw [Tree.search] at h
  split at h
  · cases h
  · rename_i rootText htext
    obtain ⟨raw, hraw, hrest⟩ := Except.bind_eq_ok_iff.1 h
    obtain ⟨ways, hways, hfound⟩ := Except.bind_eq_ok_iff.1 hrest
    cases hfound
    refine ⟨List.pairwise_mergeSort ?_ ?_ _, rootText, raw, ways, htext, Except.mapError_eq_ok_iff.1 hraw,
      (Except.mapM_eq_ok_iff.1 hways).imp fun _ _ => Search.placed_eq_ok, ?_⟩
    · exact fun a b c => Std.TransCmp.isLE_trans
    · intro a b
      have hswap : byteOrder b.1 a.1 = (byteOrder a.1 b.1).swap := Std.OrientedCmp.eq_swap
      rw [hswap]
      cases byteOrder a.1 b.1 <;> rfl
    · have hkept : (fun m : String × HostPath => !m.1.isEmpty) = fun m => decide (m.1 ≠ "") := by
        funext m
        by_cases hempty : m.1 = "" <;> simp [hempty]
      rw [← hkept]
      exact List.mergeSort_perm ..

/-! ## Kept matches -/

section Unclaimed

variable {α : Type} (claimed earlier : List TargetPath)

/-- The matches that are kept: those with a target that is not claimed, nor the target of an earlier match. -/
def unclaimed (found : List (α × TargetPath)) : List (α × TargetPath) :=
  (found.zipIdx.filter fun (m, k) =>
    m.2 ∉ claimed ∧ m.2 ∉ earlier ∧ m.2 ∉ (found.take k).map (·.2)).map (·.1)

theorem unclaimed_cons (m : α × TargetPath) (rest : List (α × TargetPath)) :
    unclaimed claimed earlier (m :: rest) =
      (if m.2 ∈ claimed ∨ m.2 ∈ earlier then [] else [m]) ++ unclaimed claimed (m.2 :: earlier) rest := by
  -- What is before a later match is the first one and what is before it in the rest.
  have hrest : ((rest.zipIdx 1).filter fun (m', k) =>
        m'.2 ∉ claimed ∧ m'.2 ∉ earlier ∧ m'.2 ∉ ((m :: rest).take k).map (·.2)).map (·.1) =
      unclaimed claimed (m.2 :: earlier) rest := by
    rw [List.zipIdx_succ, List.filter_map, List.map_map, unclaimed]
    congr 1
    refine List.filter_congr fun ⟨m', k⟩ _ => decide_eq_decide.2 ?_
    simp only [List.take_succ_cons, List.map_cons, List.mem_cons, not_or]
    tauto
  rw [unclaimed, List.zipIdx_cons, List.filter_cons, ← hrest]
  by_cases hclaimed : m.2 ∈ claimed
  · simp [hclaimed]
  · by_cases hearlier : m.2 ∈ earlier <;> simp [hclaimed, hearlier]

end Unclaimed

/-! ## Placements -/

namespace ResourceTable

/-- Whether a placement is the entry of a match at its target, with what a table declares about it. -/
def IsPlaced (t : Tree) (table : ResourceTable) (m : (String × HostPath) × TargetPath) (placement : Placement) : Prop :=
  TargetPath.parse placement.1 = .ok m.2 ∧
    ∃ host spec, t.entrySpec m.1.2 = .ok host ∧ Prevails table host spec ∧ placement.2 = .entry spec

/-- Whether the paths that matches have taken are the targets of the earlier ones, but for claimed paths. -/
def IsTaken (claimed earlier taken : List TargetPath) : Prop := ∀ path, path ∉ claimed → (path ∈ taken ↔ path ∈ earlier)

variable {t : Tree} {origin : Origin} {claimed earlier taken taken' : List TargetPath} {table : ResourceTable}

theorem IsTaken.cons (h : IsTaken claimed earlier taken) (path : TargetPath) :
    IsTaken claimed (path :: earlier) (path :: taken) := fun other hother => by
  rw [List.mem_cons, List.mem_cons, h other hother]

theorem IsTaken.cons_of_mem {path : TargetPath} (h : IsTaken claimed earlier taken) (hmem : path ∈ claimed ∨ path ∈ taken) :
    IsTaken claimed (path :: earlier) taken := fun other hother => by
  rw [List.mem_cons, ← h other hother]
  refine ⟨.inr, fun hor => hor.elim (fun heq => ?_) id⟩
  exact heq ▸ hmem.resolve_left (heq ▸ hother)

theorem IsTaken.mem_or_mem {path : TargetPath} (h : IsTaken claimed earlier taken) :
    path ∈ claimed ∨ path ∈ taken ↔ path ∈ claimed ∨ path ∈ earlier := by
  by_cases hclaimed : path ∈ claimed
  · simp [hclaimed]
  · rw [h path hclaimed]

theorem IsTaken.congr {earlier' : List TargetPath} (h : IsTaken claimed earlier taken)
    (hmem : ∀ path, path ∈ earlier ↔ path ∈ earlier') : IsTaken claimed earlier' taken :=
  fun path hpath => (h path hpath).trans (hmem path)

/-- What is placed are the matches that are kept. -/
theorem placeMatches_eq_ok (hkind : table.kind = .fromHost) {found : List (String × HostPath)} {placed : List Placement}
    (h : (table.placeMatches t origin claimed found taken).result = .ok (placed, taken'))
    (htaken : IsTaken claimed earlier taken) :
    ∃ targets, List.Forall₂ (fun m target => TargetPath.parse (table.path ++ "/" ++ m.1) = .ok target) found targets ∧
      List.Forall₂ (IsPlaced t table) (unclaimed claimed earlier (found.zip targets)) placed ∧
      IsTaken claimed (earlier ++ targets) taken' := by
  induction found generalizing placed taken earlier with
  | nil =>
    cases h
    exact ⟨[], .nil, .nil, by rwa [List.append_nil]⟩
  | cons m rest ih =>
    obtain ⟨way, path⟩ := m
    have hparse := parse_matchPath table way
    rw [placeMatches] at h
    split at h
    · cases h
    · rename_i target htarget
      split at h
      · -- The target is claimed or taken, so later matches may as well be told of it.
        rename_i hout
        rw [Traced.result_bind] at h
        obtain ⟨-, -, hrest⟩ := Except.bind_eq_ok_iff.1 h
        obtain ⟨targets, htargets, hplaced, htaken'⟩ := ih hrest (htaken.cons_of_mem hout)
        refine ⟨target :: targets, .cons (hparse ▸ htarget) htargets, ?_, htaken'.congr fun _ => by simp [or_left_comm]⟩
        rw [List.zip_cons_cons, unclaimed_cons, if_pos (htaken.mem_or_mem.1 hout)]
        exact hplaced
      · rename_i hkept
        simp only [Traced.result_bind, Traced.result_ofExcept, Traced.result_pure, Except.bind_eq_ok_iff] at h
        obtain ⟨resource, hresource, ⟨more, taken''⟩, hrest, ⟨⟩⟩ := h
        obtain ⟨targets, htargets, hplaced, htaken'⟩ := ih hrest (htaken.cons target)
        refine ⟨target :: targets, .cons (hparse ▸ htarget) htargets, ?_, htaken'.congr fun _ => by simp [or_left_comm]⟩
        rw [List.zip_cons_cons, unclaimed_cons, if_neg fun hout => hkept (htaken.mem_or_mem.2 hout)]
        obtain ⟨_, host, spec, ⟨⟩, hhost, hprevails, rfl⟩ := resource_eq_ok hkind hresource
        exact .cons ⟨htarget, host, spec, hhost, hprevails, rfl⟩ hplaced

end ResourceTable

end Provision
