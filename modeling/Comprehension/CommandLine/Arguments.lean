import Comprehension.Text.Split

/-!
Command line arguments. Options have a long name after two dashes and a short one after one dash;
short flags can be written together, and the value of an option stands after it, behind an equals
sign, or right after its short name.
-/
namespace Comprehension.CommandLine

inductive Format where
  | text
  | json
deriving DecidableEq, Repr

inductive Request where
  | version
  | compile (query schema : String) (config : Option String) (format : Format)
  | methods
  | signature (text : String)
deriving DecidableEq, Repr

/-- An option by its two names. -/
structure Name where
  short : Char
  long : String
deriving DecidableEq, Repr

/-- The arguments of one command, by the long names of the options. -/
structure Given where
  flags : List String := []
  values : List (String × String) := []
  operands : List String := []
deriving DecidableEq, Repr

namespace Given

def flag (g : Given) (name : Name) : Option Given :=
  if name.long ∈ g.flags then none else some { g with flags := name.long :: g.flags }

def value (g : Given) (name : Name) (value : String) : Option Given :=
  if (g.values.lookup name.long).isSome then none
  else some { g with values := (name.long, value) :: g.values }

def operand (g : Given) (text : String) : Given := { g with operands := g.operands ++ [text] }

end Given

def verbose : Name := ⟨'v', "verbose"⟩

/-- Whether an argument is an option, and no operand or value; a single dash is none. -/
def isOption : List Char → Bool
  | '-' :: _ :: _ => true
  | _ => false

/-- Short names written together: flags, and at the end an option, with the value that follows it
without a blank. -/
def cluster (valued : List Name) (g : Given) :
    List Char → Option (Given × Option (Name × Option String))
  | [] => some (g, none)
  | c :: rest =>
    if c = verbose.short then do cluster valued (← g.flag verbose) rest
    else match valued.find? fun name => name.short = c with
      | none => none
      | some name =>
        match rest with
        | [] => some (g, some (name, none))
        | '=' :: value => some (g, some (name, some (String.ofList value)))
        | value => some (g, some (name, some (String.ofList value)))

/-- A long name and the value behind an equals sign. -/
def longName (cs : List Char) : String × Option String :=
  let name := String.ofList (cs.takeWhile (· ≠ '='))
  match cs.dropWhile (· ≠ '=') with
  | _ :: value => (name, some (String.ofList value))
  | [] => (name, none)

/-- An option that an argument starts, with its value if that stands there too. -/
def option (valued : List Name) (g : Given) :
    List Char → Option (Given × Option (Name × Option String))
  | '-' :: '-' :: cs =>
    let (long, value) := longName cs
    match valued.find? fun name => name.long = long with
    | some name => some (g, some (name, value))
    | none =>
      if long = verbose.long && value.isNone then do return (← g.flag verbose, none) else none
  | _ :: cs => cluster valued g cs
  | [] => none

/-- Reads the arguments of a command with some options that take values. After two dashes all are
operands. -/
def given (valued : List Name) (g : Given) : List String → Option Given
  | [] => some g
  | arg :: rest =>
    if arg = "--" then some { g with operands := g.operands ++ rest }
    else if isOption arg.toList then
      match option valued g arg.toList with
      | none => none
      | some (g, none) => given valued g rest
      | some (g, some (name, some value)) => do given valued (← g.value name value) rest
      | some (g, some (name, none)) =>
        match rest with
        | [] => none
        | value :: rest =>
          if isOption value.toList then none
          else do given valued (← g.value name value) rest
    else given valued (g.operand arg) rest

def path? (text : String) : Option String := if text.isEmpty then none else some text

def format? : String → Option Format
  | "text" => some .text
  | "json" => some .json
  | _ => none

def schemaOption : Name := ⟨'s', "schema"⟩

def configOption : Name := ⟨'c', "config"⟩

def formatOption : Name := ⟨'f', "format"⟩

/-- The arguments of a compilation. The schema may come from the surroundings. -/
def compileRequest (schema? : Option String) (args : List String) : Option Request := do
  let g ← given [schemaOption, configOption, formatOption] {} args
  let [query] := g.operands | none
  let query ← path? query
  let schema ← path? (← (g.values.lookup schemaOption.long).or schema?)
  let config ← match g.values.lookup configOption.long with
    | none => some none
    | some config => (path? config).map some
  let format ← format? ((g.values.lookup formatOption.long).getD "text")
  return .compile query schema config format

def commandRequest (schema? : Option String) (command : String) (args : List String) :
    Option Request :=
  match command with
  | "compile" => compileRequest schema? args
  | "methods" => do
    let [] := (← given [] {} args).operands | none
    return .methods
  | "signature" => do
    let [text] := (← given [] {} args).operands | none
    return .signature text
  | _ => none

/-- Short names before a command: whether they ask for the version. -/
def leadingCluster (isVerbose : Bool) : List Char → Option (Bool × Bool)
  | [] => some (isVerbose, false)
  | 'V' :: _ => some (isVerbose, true)
  | 'v' :: rest => if isVerbose then none else leadingCluster true rest
  | _ => none

def leading (schema? : Option String) (isVerbose : Bool) : List String → Option Request
  | [] => none
  | arg :: rest =>
    if arg = "--version" then some .version
    else if arg = "--verbose" then if isVerbose then none else leading schema? true rest
    else if "--".isPrefixOf arg then none
    else if isOption arg.toList then
      match leadingCluster isVerbose (arg.toList.drop 1) with
      | none => none
      | some (_, true) => some .version
      | some (isVerbose, false) => leading schema? isVerbose rest
    else commandRequest schema? arg rest

namespace Request

/-- What the arguments ask for, or `none` for a wrong usage. A schema that is not given as an
argument comes from the surroundings. -/
def ofArguments (schema? : Option String) (args : List String) : Option Request :=
  leading schema? false args

end Request

end Comprehension.CommandLine
