import Gearing.Binary64

/-!
Values of a TOML document. Dates and times are checked when they are read and then only known to be
there.
-/
namespace Gearing.Toml

inductive Value where
  | string (s : String)
  | integer (i : Int)
  | float (x : Binary64)
  | boolean (b : Bool)
  | datetime
  | array (items : List Value)
  | table (fields : List (String × Value))
  deriving Inhabited

/-- A reader takes the text from the front and leaves the rest, or fails. Nothing is tried again
after a failure, so a document with a failure in it has no value. -/
abbrev Reader (α : Type) := List Char → Option (α × List Char)

end Gearing.Toml
