import Provision.Schema.Decoder
import Provision.Toml.Document

/-! # Decoding documents

A document is read in two steps: its grammar, then the shape that is asked for.
-/

namespace Provision.Schema

/-- What is wrong with a document. -/
inductive DocumentError where
  /-- It is not written in the grammar. -/
  | grammar
  /-- It does not have the shape. -/
  | shape (error : SchemaError)
  deriving DecidableEq, Repr

def DocumentError.message : DocumentError → String
  | .grammar => "the document is not TOML"
  | .shape error => error.message

/-- The value of a document in a given shape. -/
def decodeDocument {α : Type} (decode : Decoder α) (source : String) : Except DocumentError α :=
  match Toml.parse? source with
  | none => .error .grammar
  | some entries => (decode (.table .above entries)).mapError .shape

end Provision.Schema
