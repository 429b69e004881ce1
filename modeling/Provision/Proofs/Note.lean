import Mathlib.Data.List.Forall2
import Provision.Note

/-! # Results of traced computations

The notes of a computation have no part in its result: a traced computation ends well when the one without notes does.

* `Except.bind_eq_ok_iff`, `Except.mapError_eq_ok_iff`, `Except.mapM_eq_ok_iff` — results that end well;
  `exists_of_mem_forall₂` — what the last of these says of one element.
* `Traced.result_mapM` — a computation for each element of a list; the others are simp lemmas.
-/

namespace Provision

variable {ε ε' α β : Type}

/-! ## Results -/

theorem Except.mapError_eq_ok_iff {f : ε → ε'} {x : Except ε α} {a : α} : x.mapError f = .ok a ↔ x = .ok a := by
  cases x <;> simp [Except.mapError]

theorem Except.bind_eq_ok_iff {x : Except ε α} {f : α → Except ε β} {b : β} :
    x.bind f = .ok b ↔ ∃ a, x = .ok a ∧ f a = .ok b := by
  cases x <;> simp [Except.bind]

theorem Except.toOption_eq_some_iff {x : Except ε α} {a : α} : x.toOption = some a ↔ x = .ok a := by
  cases x <;> simp [Except.toOption]

theorem Except.mapM_eq_ok_iff {f : α → Except ε β} {l : List α} {r : List β} :
    l.mapM f = .ok r ↔ List.Forall₂ (fun a b => f a = .ok b) l r := by
  induction l generalizing r with
  | nil => simp [pure, Except.pure, eq_comm]
  | cons a l ih =>
    rw [List.mapM_cons]
    constructor
    · intro h
      obtain ⟨b, hb, hrest⟩ := bind_eq_ok_iff.1 h
      obtain ⟨bs, hbs, ⟨⟩⟩ := bind_eq_ok_iff.1 hrest
      exact .cons hb (ih.1 hbs)
    · rintro (_ | ⟨hb, hbs⟩)
      exact bind_eq_ok_iff.2 ⟨_, hb, bind_eq_ok_iff.2 ⟨_, ih.2 hbs, rfl⟩⟩

theorem exists_of_mem_forall₂ {α β : Type} {R : α → β → Prop} {as : List α} {bs : List β} (h : List.Forall₂ R as bs)
    {a : α} (ha : a ∈ as) : ∃ b ∈ bs, R a b := by
  induction h with
  | nil => cases ha
  | cons hab _ ih =>
    rcases List.mem_cons.1 ha with rfl | hrest
    · exact ⟨_, List.mem_cons_self, hab⟩
    · obtain ⟨b, hb, hR⟩ := ih hrest
      exact ⟨b, List.mem_cons_of_mem _ hb, hR⟩

namespace Traced

@[simp]
theorem result_ofExcept (result : Except ε α) : (ofExcept result).result = result := rfl

@[simp]
theorem result_mapError (f : ε → ε') (traced : Traced ε α) : (traced.mapError f).result = traced.result.mapError f := rfl

@[simp]
theorem result_map (f : α → β) (traced : Traced ε α) : (f <$> traced).result = traced.result.map f := by
  obtain ⟨notes, _ | _⟩ := traced <;> rfl

theorem andThen_assoc {γ : Type} (x : Traced ε α) (f : α → Traced ε β) (h : β → Traced ε γ) :
    (x.andThen f).andThen h = x.andThen fun a => (f a).andThen h := by
  obtain ⟨notes, _ | a⟩ := x
  · rfl
  · simp only [andThen]
    split <;> simp_all

instance : LawfulMonad (Traced ε) := LawfulMonad.mk' _
  (fun x => by
    obtain ⟨notes, _ | _⟩ := x
    · rfl
    · exact congrArg (Traced.mk · _) (List.append_nil notes))
  (fun _ _ => rfl) andThen_assoc

theorem result_mapM {f : α → Traced ε β} {l : List α} {r : List β} :
    (l.mapM f).result = .ok r ↔ List.Forall₂ (fun a b => (f a).result = .ok b) l r := by
  have hresult : (l.mapM f).result = l.mapM fun a => (f a).result := by
    induction l with
    | nil => rfl
    | cons a l ih =>
      simp only [List.mapM_cons, result_bind, result_pure, ih]
      rfl
  rw [hresult, Except.mapM_eq_ok_iff]

end Traced

end Provision
