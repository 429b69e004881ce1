import Provision.Proofs.Archive.RoundTrip
import Provision.Proofs.Json.RoundTrip
import Provision.Proofs.Mode
import Provision.Proofs.Note

/-! # Objects of a plan

A plan as JSON is one array, and a newline behind it. Whoever reads it finds an object for each node, with everything that
the plan shows of the node under a key of its own; what a node does not have has no key there.

* `Json.get?`, `Json.HasKeys` — the values in an object, and its keys.
* `present` — the members of those fields that are set; `lookup_present` — what is found under their keys.
* `Plan.Describes`, `Plan.describes_object` — what an object says of a node; `Plan.render_describes` — the statement.
-/

namespace Provision

/-! ## Objects -/

/-- The value under a key of an object. -/
def Json.get? : Json → String → Option Json
  | .object members, key => members.lookup key
  | _, _ => none

/-- Whether a document is an object with some of the given keys, in their order. -/
def Json.HasKeys (keys : List String) (j : Json) : Prop :=
  ∃ members, j = .object members ∧ (members.map (·.1)).Sublist keys

/-- The members of those fields that are set. -/
def present (fields : List (String × Option Json)) : List (String × Json) :=
  fields.flatMap fun field => Plan.optional field.1 field.2

theorem map_present_sublist (fields : List (String × Option Json)) :
    ((present fields).map (·.1)).Sublist (fields.map (·.1)) := by
  induction fields with
  | nil => exact .slnil
  | cons field fields ih =>
    obtain ⟨key, value⟩ := field
    cases value with
    | none => exact .cons _ ih
    | some value => exact .cons_cons _ ih

/-- Under each key is what its field is set to. -/
theorem lookup_present {fields : List (String × Option Json)} (h : (fields.map (·.1)).Nodup) (key : String) :
    (present fields).lookup key = (fields.lookup key).join := by
  induction fields with
  | nil => rfl
  | cons field fields ih =>
    obtain ⟨first, value⟩ := field
    obtain ⟨hfirst, hnodup⟩ := List.nodup_cons.1 h
    have hrest := ih hnodup
    rw [present, List.flatMap_cons, ← present]
    by_cases hkey : key = first
    · subst hkey
      cases value with
      | some value => simp [Plan.optional]
      | none =>
        -- No other field has the key, so nothing is there.
        have hnone : fields.lookup key = none := by
          refine List.lookup_eq_none_iff.2 fun field hfield => ?_
          simp only [bne_iff_ne]
          rintro rfl
          exact hfirst (List.mem_map.2 ⟨field, hfield, rfl⟩)
        simp [Plan.optional, hrest, hnone]
    · have hne : (key == first) = false := by simpa using hkey
      cases value <;> simp [Plan.optional, List.lookup_cons, hne, hrest]

theorem hasKeys_present (fields : List (String × Option Json)) :
    (Json.object (present fields)).HasKeys (fields.map (·.1)) :=
  ⟨_, rfl, map_present_sublist fields⟩

namespace Plan

/-! ## Objects of nodes -/

def target? : Entry → Option String
  | .symlink target => some target
  | _ => none

def content? : Entry → Option Octets
  | .file content => some content
  | _ => none

def device? : Entry → Option (DeviceClass × Nat × Nat)
  | .device deviceClass major minor => some (deviceClass, major, minor)
  | _ => none

/-- The value of a flag, where it is raised. -/
def raised? (raised : Bool) : Option Json := if raised then some (.bool true) else none

structure DescribesPrincipal (p : Principal) (j : Json) : Prop where
  keys : j.HasKeys ["name", "id"]
  name : j.get? "name" = p.name.map .string
  id : j.get? "id" = p.id.map .number

structure DescribesDevice (device : DeviceClass × Nat × Nat) (j : Json) : Prop where
  keys : j.HasKeys ["class", "major", "minor"]
  deviceClass : j.get? "class" = some (.string device.1.text)
  major : j.get? "major" = some (.number device.2.1)
  minor : j.get? "minor" = some (.number device.2.2)

structure DescribesAttribute (xattr : String × Octets) (j : Json) : Prop where
  keys : j.HasKeys ["name", "size"]
  name : j.get? "name" = some (.string xattr.1)
  size : j.get? "size" = some (.number xattr.2.length)

/-- Whether a text has the four digits of the mode that is declared, or else of the one that an archive gives. -/
def DescribesMode (spec : EntrySpec) (j : Json) : Prop :=
  ∃ digits, j = .string digits ∧ Mode.parse digits = .ok (spec.permissions.mode.getD spec.entry.defaultMode) ∧
    digits.length = 4

/-- The keys of an object, in their order. -/
def nodeKeys : List String :=
  ["path", "kind", "implicit", "mode", "mode_default", "owner", "group", "mtime", "atime", "target", "size", "sha256",
    "device", "xattrs", "declared_by"]

/-- What an object says of a node. -/
structure Describes (n : Node) (j : Json) : Prop where
  keys : j.HasKeys nodeKeys
  path : j.get? "path" = some (.string n.path.text)
  kind : j.get? "kind" = some (.string n.kind.text)
  implicit : j.get? "implicit" = raised? n.isImplicit
  mode : Option.Rel DescribesMode n.state.entry? (j.get? "mode")
  modeDefault : j.get? "mode_default" = raised? (n.state.entry?.any (·.permissions.mode.isNone))
  owner : Option.Rel DescribesPrincipal (n.state.entry?.bind (·.permissions.owner)) (j.get? "owner")
  group : Option.Rel DescribesPrincipal (n.state.entry?.bind (·.permissions.group)) (j.get? "group")
  mtime : j.get? "mtime" = (n.state.entry?.bind (·.mtime)).map .number
  atime : j.get? "atime" = (n.state.entry?.bind (·.atime)).map .number
  target : j.get? "target" = (n.state.entry?.bind fun spec => target? spec.entry).map .string
  size : j.get? "size" = (n.state.entry?.bind fun spec => content? spec.entry).map fun content => .number content.length
  sha256 : j.get? "sha256" =
    (n.state.entry?.bind fun spec => content? spec.entry).map fun content => .string (fingerprint content)
  device : Option.Rel DescribesDevice (n.state.entry?.bind fun spec => device? spec.entry) (j.get? "device")
  xattrs : if n.xattrs.isEmpty then j.get? "xattrs" = none
    else ∃ objects, j.get? "xattrs" = some (.array objects) ∧ List.Forall₂ DescribesAttribute n.xattrs.entries objects
  declaredBy : j.get? "declared_by" = some (.array (n.provenance.map fun p => .string p.text))

/-- The fields that an entry and its metadata set. -/
def specFields (spec? : Option EntrySpec) : List (String × Option Json) :=
  [("mode", spec?.map fun spec => .string spec.effectiveMode.text),
    ("mode_default", raised? (spec?.any (·.permissions.mode.isNone))),
    ("owner", (spec?.bind (·.permissions.owner)).map principalObject),
    ("group", (spec?.bind (·.permissions.group)).map principalObject),
    ("mtime", (spec?.bind (·.mtime)).map .number),
    ("atime", (spec?.bind (·.atime)).map .number),
    ("target", (spec?.bind fun spec => target? spec.entry).map .string),
    ("size", (spec?.bind fun spec => content? spec.entry).map fun content => .number content.length),
    ("sha256", (spec?.bind fun spec => content? spec.entry).map fun content => .string (fingerprint content)),
    ("device", (spec?.bind fun spec => device? spec.entry).map fun device =>
      .object [("class", .string device.1.text), ("major", .number device.2.1), ("minor", .number device.2.2)])]

/-- The fields that a node sets. -/
def fields (n : Node) : List (String × Option Json) :=
  [("path", some (.string n.path.text)), ("kind", some (.string n.kind.text)), ("implicit", raised? n.isImplicit)]
    ++ specFields n.state.entry?
    ++ [("xattrs", if n.xattrs.isEmpty then none
        else some (.array (n.xattrs.entries.map fun xattr => attributeObject xattr.1 xattr.2))),
      ("declared_by", some (.array (n.provenance.map fun p => .string p.text)))]

theorem flag_eq (key : String) (raised : Bool) : flag key raised = optional key (raised? raised) := by
  cases raised <;> rfl

theorem present_specFields (spec? : Option EntrySpec) :
    present (specFields spec?) = (spec?.map specMembers).getD [] := by
  cases spec? with
  | none => rfl
  | some spec =>
    obtain ⟨entry, permissions, mtime, atime⟩ := spec
    simp only [present, specFields, Option.map_some, Option.getD_some, specMembers, flag_eq]
    cases entry <;> simp [optional, entryMembers, target?, content?, device?]

theorem object_eq (n : Node) : object n = .object (present (fields n)) := by
  have hxattrs : attributeMembers n.xattrs = optional "xattrs" (if n.xattrs.isEmpty then none
      else some (.array (n.xattrs.entries.map fun xattr => attributeObject xattr.1 xattr.2))) := by
    rw [attributeMembers]
    split <;> rfl
  rw [object, flag_eq, hxattrs, ← present_specFields]
  simp [present, fields, optional]

theorem describes_principalObject (p : Principal) : DescribesPrincipal p (principalObject p) := by
  have hobject : principalObject p = .object (present [("name", p.name.map .string), ("id", p.id.map .number)]) := by
    obtain ⟨_ | name, _ | id⟩ := p <;> rfl
  rw [hobject]
  exact ⟨hasKeys_present _, (lookup_present (by simp) "name").trans rfl, (lookup_present (by simp) "id").trans rfl⟩

theorem describesMode_text {spec : EntrySpec} (hvalid : spec.IsValid) :
    DescribesMode spec (.string spec.effectiveMode.text) := by
  have hmode : spec.effectiveMode.fault? = none := by
    rw [EntrySpec.effectiveMode]
    cases hdeclared : spec.permissions.mode with
    | none => cases spec.entry <;> rfl
    | some mode => exact (permissions_fault?_eq_none_iff.1 hvalid.permissions).1 mode hdeclared
  exact ⟨_, rfl, Mode.parse_text hmode, Mode.length_text hmode⟩

theorem rel_map {α β : Type} {R : α → β → Prop} {f : α → β} {a? : Option α} (h : ∀ a ∈ a?, R a (f a)) :
    Option.Rel R a? (a?.map f) := by
  cases a? with
  | none => exact .none
  | some a => exact .some (h a rfl)

/-- The object of a node has each of its fields once, and says of it what it should. -/
theorem describes_object {n : Node} (hvalid : n.IsValid) : Describes n (object n) := by
  -- No two fields share a key, so under each key is what its own field is set to.
  have hkeys : (fields n).map (·.1) = nodeKeys := rfl
  have hget (key : String) : (object n).get? key = ((fields n).lookup key).join := by
    rw [object_eq]
    exact lookup_present (hkeys ▸ by decide) key
  constructor
  case keys =>
    rw [object_eq, ← hkeys]
    exact hasKeys_present _
  case path => exact (hget "path").trans rfl
  case kind => exact (hget "kind").trans rfl
  case implicit => exact (hget "implicit").trans rfl
  case mode =>
    rw [hget]
    exact rel_map fun spec hspec => describesMode_text (hvalid.spec spec hspec)
  case modeDefault => exact (hget "mode_default").trans rfl
  case owner =>
    rw [hget]
    exact rel_map fun p _ => describes_principalObject p
  case group =>
    rw [hget]
    exact rel_map fun p _ => describes_principalObject p
  case mtime => exact (hget "mtime").trans rfl
  case atime => exact (hget "atime").trans rfl
  case target => exact (hget "target").trans rfl
  case size => exact (hget "size").trans rfl
  case sha256 => exact (hget "sha256").trans rfl
  case device =>
    rw [hget]
    exact rel_map fun device _ => ⟨⟨_, rfl, .refl _⟩, rfl, rfl, rfl⟩
  case xattrs =>
    have hxattrs : (object n).get? "xattrs" = if n.xattrs.isEmpty then none
        else some (.array (n.xattrs.entries.map fun xattr => attributeObject xattr.1 xattr.2)) := (hget "xattrs").trans rfl
    rw [hxattrs]
    split
    · rfl
    · refine ⟨_, rfl, ?_⟩
      rw [List.forall₂_map_right_iff, List.forall₂_same]
      exact fun xattr _ => ⟨⟨_, rfl, .refl _⟩, rfl, rfl⟩
  case declaredBy => exact (hget "declared_by").trans rfl

theorem exists_pretty_array (items : List Json) : ∃ inner, (Json.array items).pretty = "[" ++ inner ++ "]" := by
  cases items with
  | nil => exact ⟨"", rfl⟩
  | cons item items =>
    refine ⟨Json.newline 1 ++ Json.prettyAt 1 item ++ Json.prettyItems 1 items ++ Json.newline 0, ?_⟩
    simp only [Json.pretty, Json.prettyAt, String.append_assoc]

/-- A plan as JSON is an array and a newline. What is read of it is an object for each node, in the order of the nodes,
    that says of the node what it should. -/
theorem render_describes {strictness : Strictness} {ds : List Declaration} {s : Sequence}
    (h : resolve strictness ds = .ok s) : ∃ inner objects,
      (Backend.plan .json).render s .unlimited =
        ({ Sink.unlimited with received := utf8 ("[" ++ inner ++ "]" ++ "\n") }, .ok ()) ∧
      JsonReader.read? ("[" ++ inner ++ "]") = some (.array objects) ∧
      List.Forall₂ Describes s.nodes objects := by
  obtain ⟨inner, hinner⟩ := exists_pretty_array (s.nodes.map object)
  have hoctets : ((Backend.plan .json).pieces s).octets = utf8 ("[" ++ inner ++ "]" ++ "\n") := by
    rw [← hinner, utf8_append]
    simp [Backend.pieces, Pieces.octets, document]
  refine ⟨inner, s.nodes.map object, ?_, ?_, ?_⟩
  · rw [← hoctets]
    exact Pieces.writeTo_unlimited _ []
  · rw [← hinner]
    exact JsonReader.read?_pretty _
  · rw [List.forall₂_map_right_iff, List.forall₂_same]
    exact fun n hn => describes_object (isValid_of_resolve h hn)

/-- A link whose path, target and attribute have characters that are escaped and characters that are not. -/
def inscribed : List Declaration :=
  [⟨⟨["say \"hi\"\\"], by decide⟩, .entry ⟨.symlink "\\é😀\n\x01", ⟨none, some ⟨some "w\tb", some 7⟩, none⟩, some 5, none⟩,
      ⟨"site", 0⟩, [], by decide, by decide⟩,
    ⟨⟨["say \"hi\"\\"], by decide⟩, .xattr ⟨"user.\x7f/", [1, 2]⟩, ⟨"site", 1⟩, [], by decide, by decide⟩]

theorem inscribed_describes : ∃ s inner objects, resolve .strict inscribed = .ok s ∧
    (Backend.plan .json).render s .unlimited =
      ({ Sink.unlimited with received := utf8 ("[" ++ inner ++ "]" ++ "\n") }, .ok ()) ∧
    JsonReader.read? ("[" ++ inner ++ "]") = some (.array objects) ∧ List.Forall₂ Describes s.nodes objects ∧
    objects.map (·.get? "path") = [some (.string "/"), some (.string "/say \"hi\"\\")] ∧
    objects.map (·.get? "target") = [none, some (.string "\\é😀\n\x01")] := by
  have hrun : (resolve .strict inscribed).toOption.map (fun s => s.nodes.map fun n =>
      (n.path.text, n.state.entry?.bind fun spec => target? spec.entry)) =
      some [("/", none), ("/say \"hi\"\\", some "\\é😀\n\x01")] := by cbv
  obtain ⟨s, hs, hnodes⟩ := Option.map_eq_some_iff.1 hrun
  have hresolve := Except.toOption_eq_some_iff.1 hs
  obtain ⟨inner, objects, hrender, hread, hdescribes⟩ := render_describes hresolve
  -- What is under a key of the objects is what the nodes have.
  have hunder (key : String) (value : String × Option String → Option Json)
      (hkey : ∀ n j, Describes n j → value (n.path.text, n.state.entry?.bind fun spec => target? spec.entry) = j.get? key) :
      objects.map (·.get? key) =
        [("/", none), ("/say \"hi\"\\", some "\\é😀\n\x01")].map value := by
    rw [← hnodes, List.map_map, ← List.forall₂_eq_eq_eq, List.forall₂_map_left_iff, List.forall₂_map_right_iff]
    exact (hdescribes.imp fun n j h => (hkey n j h).symm).flip
  exact ⟨s, inner, objects, hresolve, hrender, hread, hdescribes,
    hunder "path" (fun e => some (.string e.1)) fun n j h => h.path.symm,
    hunder "target" (fun e => e.2.map .string) fun n j h => h.target.symm⟩

end Plan

end Provision
