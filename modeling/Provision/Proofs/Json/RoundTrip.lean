import Mathlib.Data.List.Basic
import Provision.Proofs.Json.Reader

/-! # A printed document is read back

Whoever reads what is printed of a document gets the document, whatever characters the texts in it have.

* `Json.induct` — what holds of a document if it holds of all that is in it.
* `char?_escapedChar`, `text?_quoted` — texts, character by character; `number?_repr` — numbers.
* `Reads` — what a reader makes of given characters, whatever ends them; `listed?_joined` — items with commas between.
* `reads_prettyAt` — documents, by what stands in them.
* `read?_pretty` — the statement.
-/

namespace Provision

/-- What holds of a document if it holds of its items, or of the values of its members. -/
theorem Json.induct {motive : Json → Prop} (bool : ∀ value, motive (.bool value))
    (number : ∀ value, motive (.number value)) (string : ∀ value, motive (.string value))
    (array : ∀ items, (∀ item ∈ items, motive item) → motive (.array items))
    (object : ∀ members, (∀ m ∈ members, motive m.2) → motive (.object members)) : ∀ document, motive document :=
  @Json.rec motive (fun items => ∀ item ∈ items, motive item) (fun members => ∀ m ∈ members, motive m.2)
    (fun m => motive m.2) bool number string array object (by simp) (by simp +contextual) (by simp) (by simp +contextual)
    fun _ _ h => h

namespace JsonReader

open Json

/-! ## Texts -/

theorem unit?_append {cs rest : List Char} {n : Nat} (h : unit? cs = some (n, rest)) (more : List Char) :
    unit? (cs ++ more) = some (n, rest ++ more) := by
  match cs with
  | a :: b :: c :: d :: cs =>
    simp only [unit?, List.cons_append] at h ⊢
    split at h
    · rename_i hhex
      cases h
      rw [if_pos hhex]
    · cases h
  | [] | [_] | [_, _] | [_, _, _] => cases h

theorem char16?_control {c : Char} (h : c < ' ') (rest : List Char) :
    char16? ((Text.padded 4 '0' (Text.hex c.toNat)).toList ++ rest) = some (c, rest) := by
  have hcontrol : ∀ n < 32, unit? (Text.padded 4 '0' (Text.hex n)).toList = some (n, []) := by decide
  have hlt : c.toNat < 32 := h
  rw [char16?, unit?_append (hcontrol _ hlt)]
  simp only [List.nil_append]
  rw [if_neg (by omega), if_neg (by omega), Char.ofNat_toNat]

/-- Each character is read back as itself, be it escaped or not. -/
theorem char?_escapedChar (c : Char) (rest : List Char) : char? ((escapedChar c).toList ++ rest) = some (c, rest) := by
  have hmark (cs : List Char) : char? ("\\u".toList ++ cs) = char16? cs := rfl
  unfold escapedChar
  split
  case h_8 hquote hback _ _ _ _ _ =>
    split
    · rename_i hlt
      rw [String.toList_append, List.append_assoc, hmark, char16?_control hlt]
    · rename_i hlt
      rw [Char.toString, String.toList_singleton, List.singleton_append, char?, if_neg hback,
        if_neg (not_or.2 ⟨hquote, hlt⟩)]
  all_goals rfl

theorem chars?_flatMap (text rest : List Char) :
    chars? ((text.flatMap fun c => (escapedChar c).toList) ++ '"' :: rest) = some (text, rest) := by
  induction text with
  | nil => simp [chars?]
  | cons c text ih =>
    rw [List.flatMap_cons, List.append_assoc]
    generalize hmore : (text.flatMap fun c => (escapedChar c).toList) ++ '"' :: rest = more at ih ⊢
    have hread := char?_escapedChar c
    -- What is written for a character is not empty and does not start with the mark at the end of a text.
    obtain ⟨first, written, hwritten⟩ : ∃ first written, (escapedChar c).toList = first :: written := by
      refine List.exists_cons_of_ne_nil fun hnil => ?_
      have := hread []
      rw [hnil] at this
      cases this
    simp only [hwritten, List.cons_append] at hread ⊢
    have hfirst : first ≠ '"' := by
      rintro rfl
      cases hread []
    have hlt : more.length < (first :: (written ++ more)).length := by
      rw [List.length_cons, List.length_append]
      omega
    rw [chars?, if_neg (by simpa using hfirst), hread]
    simp only [dif_pos hlt, ih, Option.map_some]

theorem toList_quoted (s : String) :
    (quoted s).toList = '"' :: ((s.toList.flatMap fun c => (escapedChar c).toList) ++ ['"']) := by
  simp [quoted, String.toList_join, List.flatMap_map]

theorem text?_quoted (s : String) (rest : List Char) : text? ((quoted s).toList ++ rest) = some (s, rest) := by
  rw [toList_quoted, List.cons_append, List.append_assoc, List.singleton_append, text?, chars?_flatMap]
  simp

/-! ## Numbers -/

/-- Whether characters may follow a number, which a digit would go on with. -/
def Ends (rest : List Char) : Prop := ∀ c ∈ rest.head?, c.isDigit = false

/-- A number that is not zero is not written with a zero in front. -/
theorem head?_toDigits {n : Nat} (h : 0 < n) : (Nat.toDigits 10 n).head? ≠ some '0' := by
  induction n using Nat.strongRecOn with
  | ind n ih =>
    rw [Nat.toDigits_eq_if (by decide)]
    split
    · have hdigits : ∀ n < 10, 0 < n → n.digitChar ≠ '0' := by decide
      simpa using hdigits n ‹_› h
    · rw [List.head?_append_of_ne_nil _ Nat.toDigits_ne_nil]
      exact ih (n / 10) (by omega) (by omega)

theorem number?_repr (n : Nat) {rest : List Char} (hrest : Ends rest) :
    number? (n.repr.toList ++ rest) = some (n, rest) := by
  have htake : (n.repr.toList ++ rest).takeWhile Char.isDigit = Nat.toDigits 10 n := by
    rw [Nat.toList_repr, List.takeWhile_append_of_pos fun c hc => Nat.isDigit_of_mem_toDigits (by decide) (by decide) hc]
    cases rest with
    | nil => simp
    | cons c rest => simp [hrest c rfl]
  have hzero : ¬(Nat.toDigits 10 n = [] ∨ (Nat.toDigits 10 n).head? = some '0' ∧ Nat.toDigits 10 n ≠ ['0']) := by
    rintro (hnil | ⟨hhead, hne⟩)
    · exact Nat.toDigits_ne_nil hnil
    · obtain rfl | hpos := Nat.eq_zero_or_pos n
      · exact hne rfl
      · exact head?_toDigits hpos hhead
  simp only [number?, htake]
  rw [if_neg hzero, Nat.ofDigitChars_toDigits (by decide) (by decide), Nat.toList_repr, List.drop_left]

/-! ## Items -/

theorem skipSpace_append {gap : List Char} (hgap : ∀ c ∈ gap, isSpace c) (cs : List Char) :
    skipSpace (gap ++ cs) = skipSpace cs :=
  List.dropWhile_append_of_pos hgap

theorem skipSpace_cons {c : Char} (h : isSpace c = false) (cs : List Char) : skipSpace (c :: cs) = c :: cs := by
  simp [skipSpace, h]

theorem isSpace_newline (level : Nat) : ∀ c ∈ (newline level).toList, isSpace c := by
  intro c hc
  simp only [newline, String.toList_append, String.toList_ofList, List.mem_append, List.mem_replicate] at hc
  rcases hc with hc | ⟨-, rfl⟩
  · obtain rfl : c = '\n' := by simpa using hc
    rfl
  · rfl

/-- Whether characters can start what is listed, so that neither blanks nor a closing bracket are there instead. -/
def StartsItem (text : List Char) : Prop :=
  ∃ c more, text = c :: more ∧ isSpace c = false ∧ c ≠ ']' ∧ c ≠ '\x7d'

/-- A reader takes given characters for a value, whatever ends them. -/
structure Reads {α : Type} (reader : List Char → Option (α × List Char)) (text : List Char) (a : α) : Prop where
  start : StartsItem text
  read : ∀ rest, Ends rest → reader (text ++ rest) = some (a, rest)

theorem isDigit_of_isSpace {c : Char} (h : isSpace c) : c.isDigit = false := by
  simp only [isSpace, Bool.or_eq_true, decide_eq_true_eq] at h
  rcases h with ((rfl | rfl) | rfl) | rfl <;> rfl

theorem Ends.cons {c : Char} (hc : c.isDigit = false) (rest : List Char) : Ends (c :: rest) := by
  rintro c' ⟨⟩
  exact hc

theorem Ends.of_gap {gap : List Char} (hgap : ∀ c ∈ gap, isSpace c) {c : Char} (hc : c.isDigit = false)
    (rest : List Char) : Ends (gap ++ c :: rest) := by
  cases gap with
  | nil => exact .cons hc rest
  | cons blank gap => exact .cons (isDigit_of_isSpace (hgap blank List.mem_cons_self)) _

variable {α : Type} {item? : List Char → Option (α × List Char)} {written : α → List Char} {gap gap' : List Char}

theorem Reads.skipSpace {text : List Char} {a : α} (h : Reads item? text a) (hgap : ∀ c ∈ gap, isSpace c)
    (rest : List Char) : skipSpace (gap ++ (text ++ rest)) = text ++ rest := by
  obtain ⟨c, more, rfl, hc, -, -⟩ := h.start
  rw [skipSpace_append hgap, List.cons_append, skipSpace_cons hc]

/-- What is written of items, each behind a gap and with commas between. -/
def joined (gap : List Char) (written : α → List Char) : α → List α → List Char
  | a, [] => gap ++ written a
  | a, b :: as => gap ++ (written a ++ ',' :: joined gap written b as)

theorem length_le_joined (gap : List Char) (written : α → List Char) {a b : α} {as : List α} (h : b ∈ a :: as) :
    (written b).length ≤ (joined gap written a as).length := by
  induction as generalizing a with
  | nil =>
    rw [List.mem_singleton.1 h, joined, List.length_append]
    omega
  | cons c as ih =>
    simp only [joined, List.length_append, List.length_cons]
    rcases List.mem_cons.1 h with rfl | hb
    · omega
    · have hle := ih hb
      omega

section Closed

variable {close : Char} (hclose : close = ']' ∨ close = '\x7d') (hgap : ∀ c ∈ gap, isSpace c)
  (hgap' : ∀ c ∈ gap', isSpace c) {a : α} {as : List α} (h : ∀ b ∈ a :: as, Reads item? (written b) b) (rest : List Char)
include hclose hgap hgap' h

theorem items?_joined :
    items? item? close (joined gap written a as ++ (gap' ++ close :: rest)) = some (a :: as, rest) := by
  have hdigit : close.isDigit = false := by rcases hclose with rfl | rfl <;> rfl
  have hspace : isSpace close = false := by rcases hclose with rfl | rfl <;> rfl
  have hcomma : close ≠ ',' := by rcases hclose with rfl | rfl <;> decide
  induction as generalizing a with
  | nil =>
    have ha := h a List.mem_cons_self
    rw [joined, List.append_assoc, items?, ha.skipSpace hgap, ha.read _ (.of_gap hgap' hdigit rest)]
    simp only [skipSpace_append hgap', skipSpace_cons hspace, if_true]
  | cons b as ih =>
    have ha := h a List.mem_cons_self
    have hrest := ih fun b hb => h b (List.mem_cons_of_mem _ hb)
    rw [joined, List.append_assoc, List.append_assoc, List.cons_append]
    -- All that comes behind the comma is read by the induction hypothesis; it is shorter, so the reader goes on.
    generalize joined gap written b as ++ (gap' ++ close :: rest) = more at hrest ⊢
    have hlength : more.length < (gap ++ (written a ++ ',' :: more)).length := by
      simp only [List.length_append, List.length_cons]
      omega
    rw [items?, ha.skipSpace hgap, ha.read (',' :: more) (.cons rfl more)]
    simp only [skipSpace_cons (show isSpace ',' = false from rfl), if_neg hcomma.symm]
    rw [dif_pos ⟨trivial, hlength⟩, hrest]
    rfl

/-- Items with commas between are read one after the other, up to the closing bracket. -/
theorem listed?_joined :
    listed? item? close (joined gap written a as ++ (gap' ++ close :: rest)) = some (a :: as, rest) := by
  have ha := h a List.mem_cons_self
  obtain ⟨more, hjoined⟩ : ∃ more, joined gap written a as = gap ++ (written a ++ more) := by
    cases as with
    | nil => exact ⟨[], by rw [joined, List.append_nil]⟩
    | cons b as => exact ⟨_, rfl⟩
  have hskip : JsonReader.skipSpace (joined gap written a as ++ (gap' ++ close :: rest)) =
      written a ++ (more ++ (gap' ++ close :: rest)) := by
    rw [hjoined, List.append_assoc, List.append_assoc, ha.skipSpace hgap]
  obtain ⟨c, text, htext, -, hsquare, hcurly⟩ := ha.start
  rw [listed?, hskip, if_neg, items?_joined hclose hgap hgap' h]
  rw [htext]
  rcases hclose with rfl | rfl
  · simpa using hsquare
  · simpa using hcurly

end Closed

/-! ## Documents -/

theorem joined_items (level : Nat) (item : Json) (items : List Json) :
    joined (newline level).toList (fun item => (prettyAt level item).toList) item items =
      (newline level).toList ++ ((prettyAt level item).toList ++ (prettyItems level items).toList) := by
  induction items generalizing item with
  | nil => simp [joined, prettyItems]
  | cons next items ih => simp [joined, prettyItems, ih]

/-- What is printed of a member. -/
def writtenMember (level : Nat) (m : String × Json) : List Char :=
  (quoted m.1).toList ++ ':' :: ' ' :: (prettyAt level m.2).toList

theorem joined_members (level : Nat) (m : String × Json) (members : List (String × Json)) :
    joined (newline level).toList (writtenMember level) m members =
      (newline level).toList ++ (writtenMember level m ++ (prettyMembers level members).toList) := by
  induction members generalizing m with
  | nil => simp [joined, prettyMembers]
  | cons next members ih => simp [joined, prettyMembers, writtenMember, ih]

theorem startsItem_quoted (s : String) (more : List Char) : StartsItem ((quoted s).toList ++ more) := by
  rw [toList_quoted, List.cons_append]
  exact ⟨_, _, rfl, rfl, by decide, by decide⟩

theorem Reads.member {read : List Char → Option (Json × List Char)} {level : Nat} {m : String × Json}
    (h : Reads read (prettyAt level m.2).toList m.2) : Reads (member? read) (writtenMember level m) m := by
  refine ⟨startsItem_quoted m.1 _, fun rest hrest => ?_⟩
  have hblank : ∀ c ∈ [' '], isSpace c := by simp [isSpace]
  have hvalue := h.skipSpace hblank rest
  rw [List.singleton_append] at hvalue
  rw [writtenMember, List.append_assoc, member?, text?_quoted]
  simp only [List.cons_append, skipSpace_cons (show isSpace ':' = false from rfl)]
  rw [hvalue, h.read rest hrest]
  rfl

theorem value?_of_isDigit {c : Char} (hc : c.isDigit) (levels : Nat) (cs : List Char) :
    value? (levels + 1) (c :: cs) = (number? (c :: cs)).map fun read => (.number read.1, read.2) := by
  rw [value?]
  -- No digit starts a value of another kind.
  all_goals
    rintro rest ⟨⟩
    cases hc

theorem toList_array (level : Nat) (item : Json) (items : List Json) :
    (prettyAt level (.array (item :: items))).toList =
      '[' :: (joined (newline (level + 1)).toList (fun item => (prettyAt (level + 1) item).toList) item items ++
        ((newline level).toList ++ [']'])) := by
  rw [joined_items]
  simp [prettyAt]

theorem toList_object (level : Nat) (m : String × Json) (members : List (String × Json)) :
    (prettyAt level (.object (m :: members))).toList =
      '\x7b' :: (joined (newline (level + 1)).toList (writtenMember (level + 1)) m members ++
        ((newline level).toList ++ ['\x7d'])) := by
  obtain ⟨key, value⟩ := m
  rw [joined_members]
  simp [prettyAt, writtenMember]

theorem startsItem_of_isDigit {c : Char} (hc : c.isDigit) (more : List Char) : StartsItem (c :: more) := by
  refine ⟨c, more, rfl, ?_, ?_, ?_⟩
  · cases hspace : isSpace c with
    | false => rfl
    | true => rw [isDigit_of_isSpace hspace] at hc; cases hc
  all_goals
    rintro rfl
    cases hc

theorem reads_number (n level levels : Nat) :
    Reads (value? (levels + 1)) (prettyAt level (.number n)).toList (.number n) := by
  have hwritten : (prettyAt level (.number n)).toList = Nat.toDigits 10 n := Nat.toList_repr
  obtain ⟨c, cs, hdigits⟩ := List.exists_cons_of_ne_nil (Nat.toDigits_ne_nil (b := 10) (n := n))
  have hc : c.isDigit := Nat.isDigit_of_mem_toDigits (by decide) (by decide) (hdigits ▸ List.mem_cons_self)
  rw [hwritten]
  constructor
  · rw [hdigits]
    exact startsItem_of_isDigit hc cs
  · intro rest hrest
    have hread := number?_repr n hrest
    rw [Nat.toList_repr] at hread
    rw [hdigits, List.cons_append] at hread ⊢
    rw [value?_of_isDigit hc, hread]
    rfl

theorem reads_string (s : String) (level levels : Nat) :
    Reads (value? (levels + 1)) (prettyAt level (.string s)).toList (.string s) := by
  constructor
  · have := startsItem_quoted s []
    rwa [List.append_nil] at this
  · intro rest _
    have hread := text?_quoted s rest
    rw [prettyAt]
    rw [toList_quoted, List.cons_append] at hread ⊢
    rw [value?, hread]
    rfl

theorem reads_bool (b : Bool) (level levels : Nat) :
    Reads (value? (levels + 1)) (prettyAt level (.bool b)).toList (.bool b) := by
  cases b with
  | false => exact ⟨⟨'f', "alse".toList, by simp [prettyAt], rfl, by decide, by decide⟩, by simp [prettyAt, value?]⟩
  | true => exact ⟨⟨'t', "rue".toList, by simp [prettyAt], rfl, by decide, by decide⟩, by simp [prettyAt, value?]⟩

theorem reads_array {level levels : Nat} {items : List Json}
    (h : ∀ item ∈ items, Reads (value? levels) (prettyAt (level + 1) item).toList item) :
    Reads (value? (levels + 1)) (prettyAt level (.array items)).toList (.array items) := by
  cases items with
  | nil =>
    exact ⟨⟨'[', [']'], by simp [prettyAt], rfl, by decide, by decide⟩,
      by simp [prettyAt, value?, listed?, skipSpace_cons, isSpace]⟩
  | cons item items =>
    rw [toList_array]
    refine ⟨⟨'[', _, rfl, rfl, by decide, by decide⟩, fun rest _ => ?_⟩
    have hlisted := listed?_joined (.inl rfl) (isSpace_newline (level + 1)) (isSpace_newline level) h rest
    rw [List.cons_append, List.append_assoc, List.append_assoc, List.singleton_append, value?, hlisted]
    rfl

theorem reads_object {level levels : Nat} {members : List (String × Json)}
    (h : ∀ m ∈ members, Reads (value? levels) (prettyAt (level + 1) m.2).toList m.2) :
    Reads (value? (levels + 1)) (prettyAt level (.object members)).toList (.object members) := by
  cases members with
  | nil =>
    exact ⟨⟨'\x7b', ['\x7d'], by simp [prettyAt], rfl, by decide, by decide⟩,
      by simp [prettyAt, value?, listed?, skipSpace_cons, isSpace]⟩
  | cons m members =>
    rw [toList_object]
    refine ⟨⟨'\x7b', _, rfl, rfl, by decide, by decide⟩, fun rest _ => ?_⟩
    have hlisted := listed?_joined (.inr rfl) (isSpace_newline (level + 1)) (isSpace_newline level)
      (fun m hm => (h m hm).member) rest
    rw [List.cons_append, List.append_assoc, List.append_assoc, List.singleton_append, value?, hlisted]
    rfl

/-- What stands in a document is shorter than the document. -/
theorem length_item_lt {items : List Json} {item : Json} (h : item ∈ items) (level : Nat) :
    (prettyAt (level + 1) item).length < (prettyAt level (.array items)).length := by
  obtain ⟨first, rest, rfl⟩ := List.exists_cons_of_ne_nil (List.ne_nil_of_mem h)
  have hle := length_le_joined (newline (level + 1)).toList (fun item => (prettyAt (level + 1) item).toList) h
  rw [← String.length_toList, ← String.length_toList, toList_array, List.length_cons, List.length_append]
  omega

theorem length_member_lt {members : List (String × Json)} {m : String × Json} (h : m ∈ members) (level : Nat) :
    (prettyAt (level + 1) m.2).length < (prettyAt level (.object members)).length := by
  obtain ⟨first, rest, rfl⟩ := List.exists_cons_of_ne_nil (List.ne_nil_of_mem h)
  have hle := length_le_joined (newline (level + 1)).toList (writtenMember (level + 1)) h
  simp only [writtenMember, List.length_append, List.length_cons] at hle
  rw [← String.length_toList, ← String.length_toList, toList_object, List.length_cons, List.length_append]
  omega

/-- A document is read, whatever ends it, if there are as many levels below the first as it has characters. -/
theorem reads_prettyAt (document : Json) : ∀ level levels, (prettyAt level document).length ≤ levels →
    Reads (value? (levels + 1)) (prettyAt level document).toList document := by
  induction document using Json.induct with
  | bool value => exact fun level levels _ => reads_bool value level levels
  | number value => exact fun level levels _ => reads_number value level levels
  | string value => exact fun level levels _ => reads_string value level levels
  | array items ih =>
    intro level levels hlevels
    -- The items are shorter than the array, so one level fewer is enough for them.
    refine reads_array fun item hitem => ?_
    have hlt := length_item_lt hitem level
    obtain ⟨fewer, rfl⟩ := Nat.exists_eq_add_one.2 (Nat.lt_of_lt_of_le (Nat.zero_lt_of_lt hlt) hlevels)
    exact ih item hitem _ _ (by omega)
  | object members ih =>
    intro level levels hlevels
    refine reads_object fun m hm => ?_
    have hlt := length_member_lt hm level
    obtain ⟨fewer, rfl⟩ := Nat.exists_eq_add_one.2 (Nat.lt_of_lt_of_le (Nat.zero_lt_of_lt hlt) hlevels)
    exact ih m hm _ _ (by omega)

theorem read?_pretty (document : Json) : read? document.pretty = some document := by
  have h := reads_prettyAt document 0 _ (Nat.le_refl _)
  have hread := h.read [] (by simp [Ends])
  obtain ⟨c, more, htext, hc, -⟩ := h.start
  rw [List.append_nil] at hread
  rw [read?, pretty]
  rw [htext] at hread ⊢
  rw [skipSpace_cons hc, hread]
  rfl

-- Who else writes JSON may put blanks and escapes where the printer does not.
example : read? " [ \"\\u00E9\\ud83d\\ude00\" ,true ]\n" = some (.array [.string "é😀", .bool true]) := by cbv

end JsonReader

end Provision
