import Gearing.Toml.Document

/-!
Records read from TOML values.

A record is a table with named fields, an array of the fields in their order, or, with no field at all,
a date. Fields that the record does not know are passed over.
-/
namespace Gearing.Toml

/-- How a value is read as a field; nothing where it has the wrong type or is out of range. -/
abbrev Decoder (α : Type) := Value → Option α

namespace Decoder

def string : Decoder String
  | .string s => some s
  | _ => none

def boolean : Decoder Bool
  | .boolean b => some b
  | _ => none

/-- An integer below `2 ^ width`. -/
def natural (width : Nat) : Decoder Nat
  | .integer i => if 0 ≤ i ∧ i < 2 ^ width then some i.toNat else none
  | _ => none

/-- A float, or an integer in its place. -/
def float : Decoder Binary64
  | .float x => some x
  | .integer i => some (Binary64.ofInt i)
  | _ => none

def array {α : Type} (item : Decoder α) : Decoder (List α)
  | .array vs => vs.mapM item
  | _ => none

end Decoder

/-- The fields of a record, by name. -/
abbrev Record := String → Option Value

namespace Record

/-- A value as a record whose fields have these names in order. -/
def ofValue (names : List String) : Value → Option Record
  | .table fields => some fun name => fields.lookup name
  | .array items => some fun name => (names.zip items).lookup name
  | .datetime => some fun _ => none
  | _ => none

def required {α : Type} (r : Record) (d : Decoder α) (name : String) : Option α :=
  (r name).bind d

def optional {α : Type} (r : Record) (d : Decoder α) (name : String) (fallback : α) : Option α :=
  match r name with
  | none => some fallback
  | some v => d v

end Record
end Gearing.Toml
