/-! # Maps sorted by key

A finite map kept as the list of its entries in ascending key order, so that its view is the list
itself and two maps with the same entries are equal.

* `find?`, `insert`, `filter`, `mapValues` — the operations; `find?_insert` — what an insertion changes.
* `erase`, `pop?` — entries taken out, which leaves fewer.
-/

namespace Provision

/-- Entries with strictly ascending keys. -/
structure SortedMap (α β : Type) (cmp : α → α → Ordering) where
  entries : List (α × β)
  sorted : entries.Pairwise fun a b => cmp a.1 b.1 = .lt

namespace SortedMap

variable {α β γ : Type} {cmp : α → α → Ordering}

def empty : SortedMap α β cmp := ⟨[], .nil⟩

instance : Inhabited (SortedMap α β cmp) := ⟨empty⟩

instance : EmptyCollection (SortedMap α β cmp) := ⟨empty⟩

def keys (m : SortedMap α β cmp) : List α := m.entries.map (·.1)

/-- The values in the order of their keys. -/
def values (m : SortedMap α β cmp) : List β := m.entries.map (·.2)

def size (m : SortedMap α β cmp) : Nat := m.entries.length

def isEmpty (m : SortedMap α β cmp) : Bool := m.entries.isEmpty

/-- The value at a key in a list of entries. -/
def lookup (cmp : α → α → Ordering) (k : α) : List (α × β) → Option β
  | [] => none
  | (k', v) :: rest => if cmp k k' = .eq then some v else lookup cmp k rest

def find? (m : SortedMap α β cmp) (k : α) : Option β := lookup cmp k m.entries

def contains (m : SortedMap α β cmp) (k : α) : Bool := (m.find? k).isSome

/-! ## Insertion -/

/-- Put an entry at its place, in the stead of one with the same key. -/
def place (cmp : α → α → Ordering) (k : α) (v : β) : List (α × β) → List (α × β)
  | [] => [(k, v)]
  | (k', v') :: rest =>
    match cmp k k' with
    | .lt => (k, v) :: (k', v') :: rest
    | .eq => (k, v) :: rest
    | .gt => (k', v') :: place cmp k v rest

theorem mem_place {k : α} {v : β} {e : α × β} {l : List (α × β)} (h : e ∈ place cmp k v l) :
    e = (k, v) ∨ e ∈ l := by
  induction l with
  | nil => simpa [place] using h
  | cons head rest ih =>
    obtain ⟨k', v'⟩ := head
    simp only [place] at h
    split at h <;> grind

theorem pairwise_place [Std.TransCmp cmp] [Std.LawfulEqCmp cmp] (k : α) (v : β)
    {l : List (α × β)} (h : l.Pairwise fun a b => cmp a.1 b.1 = .lt) :
    (place cmp k v l).Pairwise fun a b => cmp a.1 b.1 = .lt := by
  induction l with
  | nil => simp [place]
  | cons head rest ih =>
    obtain ⟨k', v'⟩ := head
    have hrest := List.pairwise_cons.1 h
    simp only [place]
    split
    · rename_i hlt
      refine List.pairwise_cons.2 ⟨fun e he => ?_, h⟩
      rcases List.mem_cons.1 he with rfl | he
      · exact hlt
      · exact Std.TransCmp.lt_trans hlt (hrest.1 e he)
    · rename_i heq
      have hk : k = k' := Std.LawfulEqCmp.eq_of_compare heq
      exact List.pairwise_cons.2 ⟨fun e he => hk ▸ hrest.1 e he, hrest.2⟩
    · rename_i hgt
      refine List.pairwise_cons.2 ⟨fun e he => ?_, ih hrest.2⟩
      rcases mem_place he with rfl | he
      · exact Std.OrientedCmp.lt_of_gt hgt
      · exact hrest.1 e he

def insert [Std.TransCmp cmp] [Std.LawfulEqCmp cmp] (m : SortedMap α β cmp) (k : α) (v : β) :
    SortedMap α β cmp :=
  ⟨place cmp k v m.entries, pairwise_place k v m.sorted⟩

/-- The map of a list of entries; of two with one key the later holds. -/
def ofList [Std.TransCmp cmp] [Std.LawfulEqCmp cmp] (entries : List (α × β)) :
    SortedMap α β cmp :=
  entries.foldl (fun m e => m.insert e.1 e.2) empty

/-! ## Selection -/

def filter (keep : α → β → Bool) (m : SortedMap α β cmp) : SortedMap α β cmp :=
  ⟨m.entries.filter fun e => keep e.1 e.2, m.sorted.filter _⟩

def erase (m : SortedMap α β cmp) (k : α) : SortedMap α β cmp := m.filter fun k' _ => cmp k k' ≠ .eq

/-- The entry with the least key, and the others. -/
def pop? (m : SortedMap α β cmp) : Option ((α × β) × SortedMap α β cmp) :=
  match m with
  | ⟨[], _⟩ => none
  | ⟨e :: rest, h⟩ => some (e, ⟨rest, (List.pairwise_cons.1 h).2⟩)

/-- The map with each value changed, the keys as they are. -/
def mapValues (f : α → β → γ) (m : SortedMap α β cmp) : SortedMap α γ cmp :=
  ⟨m.entries.map fun e => (e.1, f e.1 e.2), List.pairwise_map.2 m.sorted⟩

/-! ## Laws -/

@[simp]
theorem find?_empty (k : α) : (empty : SortedMap α β cmp).find? k = none := rfl

theorem lookup_place [Std.TransCmp cmp] [Std.LawfulEqCmp cmp] (k k' : α) (v : β)
    (l : List (α × β)) :
    lookup cmp k' (place cmp k v l) = if cmp k' k = .eq then some v else lookup cmp k' l := by
  induction l with
  | nil => simp [place, lookup]
  | cons head rest ih =>
    obtain ⟨k₀, v₀⟩ := head
    simp only [place]
    split
    · simp [lookup]
    · rename_i heq
      have hk : k = k₀ := Std.LawfulEqCmp.eq_of_compare heq
      subst hk
      by_cases h : cmp k' k = .eq <;> simp [lookup, h]
    · rename_i hgt
      by_cases h₀ : cmp k' k₀ = .eq
      · have hk : k' = k₀ := Std.LawfulEqCmp.eq_of_compare h₀
        subst hk
        have hne : cmp k' k ≠ .eq := fun h => by
          have := Std.LawfulEqCmp.eq_of_compare h
          subst this
          rw [h] at hgt
          cases hgt
        simp [lookup, h₀, hne]
      · simp [lookup, h₀, ih]

theorem find?_insert [Std.TransCmp cmp] [Std.LawfulEqCmp cmp] (m : SortedMap α β cmp)
    (k k' : α) (v : β) :
    (m.insert k v).find? k' = if cmp k' k = .eq then some v else m.find? k' :=
  lookup_place k k' v m.entries

/-! ## Taking away -/

theorem mem_of_lookup [Std.LawfulEqCmp cmp] {k : α} {v : β} {l : List (α × β)}
    (h : lookup cmp k l = some v) : (k, v) ∈ l := by
  induction l with
  | nil => cases h
  | cons head rest ih =>
    obtain ⟨k', v'⟩ := head
    simp only [lookup] at h
    split at h
    · rename_i heq
      cases h
      rw [Std.LawfulEqCmp.eq_of_compare heq]
      exact List.mem_cons_self
    · exact List.mem_cons_of_mem _ (ih h)

/-- What can be looked up is an entry. -/
theorem mem_entries_of_find? [Std.LawfulEqCmp cmp] {m : SortedMap α β cmp} {k : α} {v : β}
    (h : m.find? k = some v) : (k, v) ∈ m.entries := mem_of_lookup h

theorem size_erase_lt [Std.LawfulEqCmp cmp] {m : SortedMap α β cmp} {k : α} {v : β}
    (h : m.find? k = some v) : (m.erase k).size < m.size :=
  List.length_filter_lt_length_iff_exists.2
    ⟨(k, v), mem_entries_of_find? h, by simp [Std.ReflCmp.compare_self]⟩

theorem pop?_entries {m m' : SortedMap α β cmp} {e : α × β} (h : m.pop? = some (e, m')) :
    m.entries = e :: m'.entries := by
  obtain ⟨entries, sorted⟩ := m
  cases entries with
  | nil => cases h
  | cons head rest => cases h; rfl

theorem pop?_eq_none {m : SortedMap α β cmp} (h : m.pop? = none) : m.entries = [] := by
  obtain ⟨entries, sorted⟩ := m
  cases entries with
  | nil => rfl
  | cons head rest => cases h

theorem size_lt_of_pop? {m m' : SortedMap α β cmp} {e : α × β} (h : m.pop? = some (e, m')) :
    m'.size < m.size := by
  simp [size, pop?_entries h]

end SortedMap

end Provision
