import Gearing.Toml.Number
import Gearing.Toml.Section

/-!
TOML documents. `Toml.parse` answers the table of a text, or nothing when the text is no document.
-/
namespace Gearing.Toml

/-- The last part of a key, and the parts before it. -/
def splitKey (ks : List String) : Option (List String × String) :=
  ks.getLast?.map (ks.dropLast, ·)

def items (item : Reader Value) : Nat → Reader (List Value)
  | 0, _ => none
  | fuel + 1, cs =>
    match dropGap false cs with
    | ']' :: rest => some ([], rest)
    | cs => do
      let (v, rest) ← item cs
      match dropGap false rest with
      | ',' :: rest =>
        let (vs, rest) ← items item fuel rest
        return (v :: vs, rest)
      | ']' :: rest => return ([v], rest)
      | _ => none

def keyValue (value : Reader Value) (cs : List Char) :
    Option ((List String × String × Value) × List Char) := do
  let (ks, rest) ← key cs
  let (path, k) ← splitKey ks
  let rest ← mark '=' rest
  let (v, rest) ← value (dropBlanks rest)
  return ((path, k, v), rest)

def pairs (value : Reader Value) : Nat → Section → Reader Section
  | 0, _, _ => none
  | fuel + 1, t, cs => do
    let ((path, k, v), rest) ← keyValue value cs
    let t ← t.insert path k v
    match dropBlanks rest with
    | ',' :: rest => pairs value fuel t rest
    | '\x7d' :: rest => return (t, rest)
    | _ => none

/-- A value with at most `depth` arrays and inline tables inside one another. -/
def value : Nat → Reader Value
  | _, [] => none
  | depth, c :: cs =>
    if c = '"' ∨ c = '\'' then (string (c :: cs)).map fun (s, rest) => (.string (String.ofList s), rest)
    else if c = '[' then
      match depth with
      | 0 => none
      | depth + 1 => (items (value depth) (cs.length + 1) cs).map fun (vs, rest) => (.array vs, rest)
    else if c = '\x7b' then
      match depth with
      | 0 => none
      | depth + 1 =>
        match dropBlanks cs with
        | '\x7d' :: rest => some (.table [], rest)
        | _ =>
          (pairs (value depth) (cs.length + 1) {} cs).map fun (t, rest) => (t.item.toValue, rest)
    else if isDigit c ∨ c = '+' ∨ c = '-' then numberOrDate (c :: cs)
    else
      match c :: cs with
      | 't' :: 'r' :: 'u' :: 'e' :: rest => some (.boolean true, rest)
      | 'f' :: 'a' :: 'l' :: 's' :: 'e' :: rest => some (.boolean false, rest)
      | 'i' :: 'n' :: 'f' :: _ => number (c :: cs)
      | 'n' :: 'a' :: 'n' :: _ => number (c :: cs)
      | _ => none

/-- Where a table goes once it is complete. -/
inductive Place where
  | root
  | table (path : List String) (k : String)
  | element (path : List String) (k : String)

/-- A document in the making: the finished tables, and the one that lines go to. -/
structure Draft where
  root : Section := {}
  current : Section := {}
  place : Place := .root

namespace Draft

/-- The root with the current table in its place. -/
def close (d : Draft) : Option Section :=
  match d.place with
  | .root => some d.current
  | .table path k =>
    (d.root.visit false (fun p => some ((), p.put k d.current.item)) path).map (·.2)
  | .element path k => (d.root.visit false (Section.append k d.current.fields) path).map (·.2)

def openTable (d : Draft) (ks : List String) : Option Draft := do
  let (path, k) ← splitKey ks
  let (fields, root) ← (← d.close).visit false (Section.reopen k) path
  return { root, current := { fields }, place := .table path k }

def openElement (d : Draft) (ks : List String) : Option Draft := do
  let (path, k) ← splitKey ks
  let (_, root) ← (← d.close).visit false (Section.ensureArray k) path
  return { root, current := {}, place := .element path k }

/-- Reads one line: a header, a pair, a comment or nothing. -/
def line (d : Draft) (cs : List Char) : Option (Draft × List Char) := do
  match dropBlanks cs with
  | '[' :: '[' :: cs =>
    let (ks, rest) ← key cs
    let rest ← mark ']' (← mark ']' rest)
    return (← d.openElement ks, ← lineTail? rest)
  | '[' :: cs =>
    let (ks, rest) ← key cs
    return (← d.openTable ks, ← lineTail? (← mark ']' rest))
  | cs =>
    match lineTail? cs with
    | some rest => return (d, rest)
    | none =>
      let ((path, k, v), rest) ← keyValue (value (depthLimit - 1)) cs
      return ({ d with current := ← d.current.insert path k v }, ← lineTail? rest)

def lines : Nat → Draft → List Char → Option Draft
  | _, d, [] => some d
  | 0, _, _ => none
  | fuel + 1, d, cs => (d.line cs).bind fun (d, rest) => lines fuel d rest

end Draft

/-- A byte order mark in front of a text is no part of it. -/
def dropOrderMark : List Char → List Char
  | c :: cs => if c.val = 0xfeff then cs else c :: cs
  | [] => []

def parse (s : String) : Option Value := do
  let cs := dropOrderMark s.toList
  let d ← Draft.lines cs.length {} cs
  let root ← d.close
  return root.item.toValue

end Gearing.Toml
