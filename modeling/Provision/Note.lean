/-! # Notes

What a run says about its progress. A note has a topic and a level, by which the console chooses what to
show; saying it changes nothing else.

* `Note`, `Topic`, `Level` — one thing said.
* `Traced` — a computation with its notes; they remain when it fails.
-/

namespace Provision

/-- How urgent a note is. -/
inductive Level where
  | error
  | warn
  | info
  | debug
  | trace
  deriving DecidableEq, Repr

/-- How much is shown when only more urgent levels than this one are left out. -/
def Level.rank : Level → Nat
  | error => 1
  | warn => 2
  | info => 3
  | debug => 4
  | trace => 5

/-- What a note is about. -/
inductive Topic where
  /-- The run as a whole. -/
  | console
  | stage
  | manifest
  | host
  | merge
  | sequence
  | compilation
  | archive
  deriving DecidableEq, Repr

structure Note where
  level : Level
  topic : Topic
  text : String
  deriving DecidableEq, Repr

/-- A computation with its notes. -/
structure Traced (ε α : Type) where
  notes : List Note
  result : Except ε α

namespace Traced

variable {ε ε' α β : Type}

def ofExcept (result : Except ε α) : Traced ε α := ⟨[], result⟩

def fail (e : ε) : Traced ε α := ⟨[], .error e⟩

/-- A note and nothing else. -/
def say (level : Level) (topic : Topic) (text : String) : Traced ε Unit :=
  ⟨[⟨level, topic, text⟩], .ok ()⟩

/-- What comes after a result, with the notes of both. -/
def andThen (first : Traced ε α) (next : α → Traced ε β) : Traced ε β :=
  match first.result with
  | .error e => ⟨first.notes, .error e⟩
  | .ok a => ⟨first.notes ++ (next a).notes, (next a).result⟩

instance : Monad (Traced ε) where
  pure a := ⟨[], .ok a⟩
  bind := andThen

/-- The computation with another failure. -/
def mapError (f : ε → ε') (t : Traced ε α) : Traced ε' α := ⟨t.notes, t.result.mapError f⟩

@[simp]
theorem result_pure (a : α) : (pure a : Traced ε α).result = .ok a := rfl

@[simp]
theorem result_bind (first : Traced ε α) (next : α → Traced ε β) :
    (first >>= next).result = first.result.bind fun a => (next a).result := by
  change (first.andThen next).result = _
  unfold andThen
  cases first.result <;> rfl

@[simp]
theorem result_say (level : Level) (topic : Topic) (text : String) :
    (say level topic text : Traced ε Unit).result = .ok () := rfl

end Traced

end Provision
