import Gearing.Toml.Value

/-!
The text of a TOML document below the level of values: blanks, comments, line ends, strings and keys.

A line ends at a line feed, with or without a carriage return before it. A carriage return on its own
stands nowhere.
-/
namespace Gearing.Toml

def isBlank (c : Char) : Bool := c = ' ' || c = '\t'

/-- What a comment may hold, and outside their delimiters the strings too. -/
def isPlain (c : Char) : Bool := c = '\t' || (32 ≤ c.val && c.val ≠ 127)

def dropBlanks (cs : List Char) : List Char := cs.dropWhile isBlank

def newline? : List Char → Option (List Char)
  | '\n' :: cs => some cs
  | '\r' :: '\n' :: cs => some cs
  | _ => none

def dropComment : List Char → List Char
  | '#' :: cs => cs.dropWhile isPlain
  | cs => cs

/-- The rest of a line that holds nothing more: blanks, a comment, and the end of the line or of the
text. -/
def lineTail? (cs : List Char) : Option (List Char) :=
  match dropComment (dropBlanks cs) with
  | [] => some []
  | cs => newline? cs

/-- Drops blanks, line ends and comments. A comment that no line ends is dropped up to where it stops,
which is nowhere that a value or a bracket could stand. -/
def dropGap (inComment : Bool) : List Char → List Char
  | [] => []
  | '\n' :: cs => dropGap false cs
  | '\r' :: '\n' :: cs => dropGap false cs
  | c :: cs =>
    if inComment then if isPlain c then dropGap true cs else c :: cs
    else if isBlank c then dropGap false cs
    else if c = '#' then dropGap true cs
    else c :: cs

/-! ### Strings -/

def hexDigit? (c : Char) : Option Nat :=
  if '0' ≤ c ∧ c ≤ '9' then some (c.toNat - 48)
  else if 'a' ≤ c ∧ c ≤ 'f' then some (c.toNat - 87)
  else if 'A' ≤ c ∧ c ≤ 'F' then some (c.toNat - 55)
  else none

def hex? (cs : List Char) : Option Nat :=
  cs.foldlM (fun n c => (hexDigit? c).map (16 * n + ·)) 0

/-- A code point that is a character; surrogates are none. -/
def scalar? (cs : List Char) : Option Char :=
  (hex? cs).bind fun n => if n.isValidChar then some (Char.ofNat n) else none

def shortEscape? (c : Char) : Option Char :=
  if c = 'b' then some '\x08'
  else if c = 't' then some '\t'
  else if c = 'n' then some '\n'
  else if c = 'f' then some '\x0c'
  else if c = 'r' then some '\r'
  else if c = '"' ∨ c = '\\' then some c
  else none

def escapeWidth (c : Char) : Nat := if c = 'u' then 4 else if c = 'U' then 8 else 0

def escape? : Reader Char
  | [] => none
  | c :: cs =>
    let width := escapeWidth c
    if width = 0 then (shortEscape? c).map (·, cs)
    else if cs.length < width then none
    else (scalar? (cs.take width)).map (·, cs.drop width)

theorem length_escape? {cs rest : List Char} {c : Char} (h : escape? cs = some (c, rest)) :
    rest.length < cs.length := by
  cases cs with
  | nil => cases h
  | cons a as =>
    simp only [escape?] at h
    generalize escapeWidth a = w at h
    split at h
    · obtain ⟨x, _, hx⟩ := Option.map_eq_some_iff.1 h
      cases hx
      simp
    · split at h
      · cases h
      · obtain ⟨x, _, hx⟩ := Option.map_eq_some_iff.1 h
        cases hx
        simp only [List.length_drop, List.length_cons]
        omega

/-- A basic string after its opening quote. -/
def basicString : Reader (List Char)
  | [] => none
  | c :: cs =>
    if c = '"' then some ([], cs)
    else if c = '\\' then
      match _h : escape? cs with
      | none => none
      | some (x, rest) => (basicString rest).map fun (s, rest) => (x :: s, rest)
    else if isPlain c then (basicString cs).map fun (s, rest) => (c :: s, rest)
    else none
termination_by cs => cs.length
decreasing_by
  · have := length_escape? _h
    simp
    omega
  · simp

def literalString (cs : List Char) : Option (List Char × List Char) :=
  let isBody (c : Char) : Bool := isPlain c && c ≠ '\''
  match cs.dropWhile isBody with
  | '\'' :: rest => some (cs.takeWhile isBody, rest)
  | _ => none

/-- Three to five quotes end a multi-line string; those beyond three are its last characters. -/
def closing? (quote : Char) (cs : List Char) : Option (List Char × List Char) :=
  let run := (cs.takeWhile (· = quote)).length
  if run < 3 then none
  else
    let extra := min (run - 3) 2
    some (List.replicate extra quote, cs.drop (3 + extra))

/-- A backslash before a line end takes the line end away, and the blanks and lines after it. -/
def continuation? (cs : List Char) : Option (List Char) := newline? (dropBlanks cs)

/-- The body of a multi-line basic string. While `skipping`, blanks and line ends are dropped. -/
def multilineBasic : Nat → Bool → Reader (List Char)
  | 0, _, _ => none
  | fuel + 1, skipping, cs =>
    match closing? '"' cs with
    | some (extra, rest) => some (extra, rest)
    | none =>
      match newline? cs with
      | some rest =>
        (multilineBasic fuel skipping rest).map fun (s, rest) =>
          (if skipping then s else '\n' :: s, rest)
      | none =>
        match cs with
        | [] => none
        | c :: cs =>
          if c = '\\' then
            match continuation? cs with
            | some rest => multilineBasic fuel true rest
            | none =>
              (escape? cs).bind fun (x, rest) =>
                (multilineBasic fuel false rest).map fun (s, rest) => (x :: s, rest)
          else if skipping && isBlank c then multilineBasic fuel true cs
          else if isPlain c then
            (multilineBasic fuel false cs).map fun (s, rest) => (c :: s, rest)
          else none

def multilineLiteral : Nat → Reader (List Char)
  | 0, _ => none
  | fuel + 1, cs =>
    match closing? '\'' cs with
    | some (extra, rest) => some (extra, rest)
    | none =>
      match newline? cs with
      | some rest => (multilineLiteral fuel rest).map fun (s, rest) => ('\n' :: s, rest)
      | none =>
        match cs with
        | [] => none
        | c :: cs =>
          if isPlain c then (multilineLiteral fuel cs).map fun (s, rest) => (c :: s, rest)
          else none

/-- Any string, from its first quote on. A line end right after three opening quotes is no part of
it. -/
def string : Reader (List Char)
  | '"' :: '"' :: '"' :: cs =>
    let cs := (newline? cs).getD cs
    multilineBasic (cs.length + 1) false cs
  | '\'' :: '\'' :: '\'' :: cs =>
    let cs := (newline? cs).getD cs
    multilineLiteral (cs.length + 1) cs
  | '"' :: cs => basicString cs
  | '\'' :: cs => literalString cs
  | _ => none

/-! ### Keys -/

def isBare (c : Char) : Bool :=
  ('a' ≤ c && c ≤ 'z') || ('A' ≤ c && c ≤ 'Z') || ('0' ≤ c && c ≤ '9') || c = '-' || c = '_'

def simpleKey : Reader String
  | '"' :: cs => (basicString cs).map fun (s, rest) => (String.ofList s, rest)
  | '\'' :: cs => (literalString cs).map fun (s, rest) => (String.ofList s, rest)
  | cs =>
    let s := cs.takeWhile isBare
    if s.isEmpty then none else some (String.ofList s, cs.dropWhile isBare)

/-- Nesting of a document ends below this depth. -/
def depthLimit : Nat := 80

/-- A dotted key of at most `n` parts, with the blanks around them. -/
def dottedKey : Nat → Reader (List String)
  | 0, _ => none
  | n + 1, cs =>
    (simpleKey (dropBlanks cs)).bind fun (k, rest) =>
      match dropBlanks rest with
      | '.' :: rest => (dottedKey n rest).map fun (ks, rest) => (k :: ks, rest)
      | rest => some ([k], rest)

def key : Reader (List String) := dottedKey (depthLimit - 1)

end Gearing.Toml
