import Gearing.Toml.Value

/-!
Tables while a document is being read.

A table that a header or a dotted key only passes through is implicit, and one that a dotted key makes
is dotted. A header may open a table that is implicit and not dotted, once. A dotted key may go on only
through tables that dotted keys have made.
-/
namespace Gearing.Toml

inductive Item where
  | value (v : Value)
  | table (implicit dotted : Bool) (fields : List (String × Item))
  /-- An array of tables. -/
  | tables (elements : List (List (String × Item)))

structure Section where
  implicit : Bool := false
  dotted : Bool := false
  fields : List (String × Item) := []

namespace Section

def item (t : Section) : Item := .table t.implicit t.dotted t.fields

def find? (t : Section) (k : String) : Option Item := t.fields.lookup k

def erase (t : Section) (k : String) : Section :=
  { t with fields := t.fields.filter (·.1 ≠ k) }

def put (t : Section) (k : String) (i : Item) : Section :=
  if (t.find? k).isSome then
    { t with fields := t.fields.map fun f => if f.1 = k then (k, i) else f }
  else { t with fields := t.fields ++ [(k, i)] }

/-- Goes to the table at the end of a path and changes it there. Tables on the way that are missing
are made; of an array of tables the last one is taken. -/
def visit {α : Type} (dotted : Bool) (f : Section → Option (α × Section)) :
    List String → Section → Option (α × Section)
  | [], t => f t
  | k :: ks, t =>
    match t.find? k with
    | none =>
      (visit dotted f ks { implicit := true, dotted }).map fun (a, c) => (a, t.put k c.item)
    | some (.value _) => none
    | some (.tables elements) =>
      match elements.getLast? with
      | none => none
      | some fields =>
        (visit dotted f ks { fields }).map fun (a, c) =>
          (a, t.put k (.tables (elements.dropLast ++ [c.fields])))
    | some (.table implicit made fields) =>
      if dotted && !implicit then none
      else
        (visit dotted f ks { implicit, dotted := made, fields }).map fun (a, c) =>
          (a, t.put k c.item)

/-- Adds a value under a key whose last part is not there yet. Only a dotted key may add to a table
that dotted keys have made, and it may add to no other. -/
def insert (t : Section) (path : List String) (k : String) (v : Value) : Option Section :=
  (visit true (fun c =>
    if c.dotted = path.isEmpty || (c.find? k).isSome then none
    else some ((), c.put k (.value v))) path t).map (·.2)

/-- Takes out the fields that a header goes on with, if it may open its table. -/
def reopen (k : String) (parent : Section) : Option (List (String × Item) × Section) :=
  match parent.find? k with
  | none => some ([], parent)
  | some (.table true false fields) => some (fields, parent.erase k)
  | some _ => none

def ensureArray (k : String) (parent : Section) : Option (Unit × Section) :=
  match parent.find? k with
  | none => some ((), parent.put k (.tables []))
  | some (.tables _) => some ((), parent)
  | some _ => none

def append (k : String) (fields : List (String × Item)) (parent : Section) :
    Option (Unit × Section) :=
  match parent.find? k with
  | some (.tables elements) => some ((), parent.put k (.tables (elements ++ [fields])))
  | _ => none

end Section

mutual

def Item.toValue : Item → Value
  | .value v => v
  | .table _ _ fields => .table (fieldValues fields)
  | .tables elements => .array (elementValues elements)

def fieldValues : List (String × Item) → List (String × Value)
  | [] => []
  | (k, i) :: fs => (k, i.toValue) :: fieldValues fs

def elementValues : List (List (String × Item)) → List Value
  | [] => []
  | fs :: es => .table (fieldValues fs) :: elementValues es

end

end Gearing.Toml
