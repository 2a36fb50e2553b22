import Gearing.Address
import Gearing.Power

/-!
The arguments of the command line.

`[--engine-config FILE] plan SYMBOL TARGET [--principal AMOUNT] [--helper ADDRESS]` or
`[--engine-config FILE] simulate SYMBOL PRINCIPAL TARGET [--native]`. A value follows its option as the
next argument or after an equals sign, options and positional arguments mix, and after `--` all
arguments are positional. Every option is given at most once.
-/
namespace Gearing.Command

inductive Request where
  | plan (symbol : String) (target : Nat) (principal : String) (helper : Address)
  | simulate (symbol principal : String) (target : Nat) (native : Bool)
  deriving DecidableEq, Repr

structure Invocation where
  engineConfig : Option String
  request : Request
  deriving DecidableEq, Repr

inductive Argument where
  | positional (s : String)
  | option (name value : String)
  | flag (name : String)
  deriving DecidableEq, Repr

/-- Whether an argument can only be an option: it starts with a hyphen and is more than that. -/
def isOption (s : String) : Bool :=
  match s.toList with
  | '-' :: _ :: _ => true
  | _ => false

/-- The name of a long option, and the value attached to it. -/
def long? (s : String) : Option (String × Option String) :=
  match s.toList with
  | '-' :: '-' :: cs =>
    let name := String.ofList (cs.takeWhile (· ≠ '='))
    match cs.dropWhile (· ≠ '=') with
    | [] => some (name, none)
    | _ :: value => some (name, some (String.ofList value))
  | _ => none

/-- What a command knows of an option: whether it has a value. -/
abbrev Options := String → Option Bool

/-- Tells options, their values and positional arguments apart. -/
def arguments (options : Options) : List String → Option (List Argument)
  | [] => some []
  | s :: rest =>
    if s = "--" then some (rest.map .positional)
    else if !isOption s then (arguments options rest).map (.positional s :: ·)
    else
      match long? s with
      | none => none
      | some (name, attached) =>
        match options name, attached, rest with
        | some true, some value, rest => (arguments options rest).map (.option name value :: ·)
        | some true, none, value :: rest =>
          if isOption value then none else (arguments options rest).map (.option name value :: ·)
        | some false, none, rest => (arguments options rest).map (.flag name :: ·)
        | _, _, _ => none

def positionals (as : List Argument) : List String :=
  as.filterMap fun
    | .positional s => some s
    | _ => none

def value? (name : String) (as : List Argument) : Option (Option String) :=
  match as.filterMap fun
    | .option n v => if n = name then some v else none
    | _ => none with
  | [] => some none
  | [v] => some (some v)
  | _ => none

def flag? (name : String) (as : List Argument) : Option Bool :=
  match as.count (.flag name) with
  | 0 => some false
  | 1 => some true
  | _ => none

def digits? (cs : List Char) : Option Nat :=
  cs.foldlM (fun n c => if '0' ≤ c ∧ c ≤ '9' then some (10 * n + (c.toNat - 48)) else none) 0

/-- A 64-bit number in decimal digits, with or without a plus sign. -/
def number? (s : String) : Option Nat :=
  let cs := match s.toList with
    | '+' :: cs => cs
    | cs => cs
  if cs.isEmpty then none
  else (digits? cs).bind fun n => if n < 2 ^ 64 then some n else none

def planRequest (args : List String) : Option Request := do
  let as ← arguments (fun n => if n = "principal" ∨ n = "helper" then some true else none) args
  match positionals as with
  | [symbol, target] =>
    let principal ← value? "principal" as
    let helper ← match ← value? "helper" as with
      | none => some .zero
      | some s => (Address.parse s).toOption
    return .plan symbol (← number? target) (principal.getD "1") helper
  | _ => none

def simulateRequest (args : List String) : Option Request := do
  let as ← arguments (fun n => if n = "native" then some false else none) args
  match positionals as with
  | [symbol, principal, target] =>
    return .simulate symbol principal (← number? target) (← flag? "native" as)
  | _ => none

def request? : List String → Option Request
  | "plan" :: args => planRequest args
  | "simulate" :: args => simulateRequest args
  | _ => none

/-- An option of the program with its value, and the arguments after it. -/
def leading? : List String → Option (String × List String)
  | [] => none
  | s :: rest =>
    match long? s with
    | some ("engine-config", some value) => some (value, rest)
    | some ("engine-config", none) =>
      match rest with
      | value :: rest => if isOption value then none else some (value, rest)
      | [] => none
    | _ => none

def invocation? (args : List String) : Option Invocation :=
  match leading? args with
  | some (file, rest) =>
    if file.isEmpty then none else (request? rest).map (⟨some file, ·⟩)
  | none => (request? args).map (⟨none, ·⟩)

end Gearing.Command
