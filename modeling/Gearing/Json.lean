/-!
JSON values of printed documents, and their text.

Numbers are naturals and an object keeps the order of its fields. `Json.pretty` indents by two
blanks; empty arrays and objects stay on one line.
-/
namespace Gearing

inductive Json where
  | null
  | bool (b : Bool)
  | number (n : Nat)
  | string (s : String)
  | array (items : List Json)
  | object (fields : List (String × Json))
  deriving Inhabited

namespace Json

def hexDigits (n : Nat) : String :=
  let ds := Nat.toDigits 16 n
  String.ofList (List.replicate (4 - ds.length) '0' ++ ds)

def escape (c : Char) : List Char :=
  if c = '"' then ['\\', '"']
  else if c = '\\' then ['\\', '\\']
  else if c = '\n' then ['\\', 'n']
  else if c = '\r' then ['\\', 'r']
  else if c = '\t' then ['\\', 't']
  else if c.val = 8 then ['\\', 'b']
  else if c.val = 12 then ['\\', 'f']
  else if c.val < 32 then '\\' :: 'u' :: (hexDigits c.toNat).toList
  else [c]

def quote (s : String) : String :=
  "\"" ++ String.ofList (s.toList.flatMap escape) ++ "\""

def indent (depth : Nat) : String := String.ofList (List.replicate (2 * depth) ' ')

mutual

def prettyAt (depth : Nat) : Json → String
  | null => "null"
  | bool b => toString b
  | number n => toString n
  | string s => quote s
  | array [] => "[]"
  | array (v :: vs) =>
    "[\n" ++ indent (depth + 1) ++ prettyAt (depth + 1) v ++ prettyItems (depth + 1) vs ++ "\n" ++
      indent depth ++ "]"
  | object [] => "\x7b\x7d"
  | object ((k, v) :: fs) =>
    "\x7b\n" ++ indent (depth + 1) ++ quote k ++ ": " ++ prettyAt (depth + 1) v ++
      prettyFields (depth + 1) fs ++ "\n" ++ indent depth ++ "\x7d"

def prettyItems (depth : Nat) : List Json → String
  | [] => ""
  | v :: vs => ",\n" ++ indent depth ++ prettyAt depth v ++ prettyItems depth vs

def prettyFields (depth : Nat) : List (String × Json) → String
  | [] => ""
  | (k, v) :: fs =>
    ",\n" ++ indent depth ++ quote k ++ ": " ++ prettyAt depth v ++ prettyFields depth fs

end

def pretty (v : Json) : String := prettyAt 0 v

end Json
end Gearing
