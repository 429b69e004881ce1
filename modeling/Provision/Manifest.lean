import Provision.Declaration

/-! # Manifests

A manifest is a list of declarations under one name. Pushing numbers each declaration by its place
among the accepted ones, so a refused declaration leaves no gap.
-/

namespace Provision

/-- Declarations in the order in which they were pushed. -/
structure Manifest where
  id : String
  declarations : List Declaration

namespace Manifest

def empty (id : String) : Manifest := ⟨id, []⟩

def size (m : Manifest) : Nat := m.declarations.length

/-- Where the next declaration of the manifest will stand. -/
def nextProvenance (m : Manifest) : Provenance := ⟨m.id, m.size⟩

/-- The manifest with one more declaration, and the paths it requires. -/
def push (m : Manifest) (path : String) (resource : Resource) (requires : List String) :
    Except InvalidDeclaration Manifest := do
  let bare ← Declaration.make path resource m.nextProvenance
  let declaration ← bare.requiring requires
  return { m with declarations := m.declarations ++ [declaration] }

end Manifest

end Provision
