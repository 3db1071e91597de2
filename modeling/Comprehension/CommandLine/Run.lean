import Comprehension.CommandLine.Arguments
import Comprehension.Document.Json
import Comprehension.Document.Toml
import Comprehension.Exchange.Command
import Comprehension.Exchange.Query
import Comprehension.Exchange.Schema
import Comprehension.Method.Defaults

/-!
What a command line prints. All of it is decided from the arguments, the surroundings and the
contents of the files.
-/
namespace Comprehension.CommandLine

open Method (Registry Signature)

/-- The content of a file: a text, or a document in one of the two formats. -/
inductive File where
  | text (content : String)
  | json (d : Document)
  | toml (d : Document)

namespace File

def asJson? : File → Option Document
  | text content => Document.ofJson? content
  | json d => some d
  | toml _ => none

def asToml? : File → Option Document
  | text content => Document.ofToml? content
  | json _ => none
  | toml d => some d.withoutNulls

end File

/-- What a run sees besides its arguments. -/
structure Surroundings where
  /-- The schema to use where no argument names one. -/
  schema? : Option String
  /-- The user's configuration, if there is one. -/
  config? : Option File
  file : String → Option File

/-- The files that a request reads. -/
def Request.paths : Request → List String
  | compile query schema config _ => query :: schema :: config.toList
  | version | methods | signature _ => []

/-- What a run leaves behind. -/
structure Outcome where
  status : Nat
  output : String
  errors : String
deriving DecidableEq, Repr

def versionLine : String := "quill 0.1.0\n"

/-- Why a run fails. -/
inductive Failure where
  | queryMissing (path : String)
  | queryMalformed (path : String)
  | schemaMissing (path : String)
  | schemaMalformed (path : String)
  | configMissing
  | configMalformed
  | notCompiled (error : Error)
deriving DecidableEq

def noSuchFile : String := "No such file or directory (os error 2)"

def Failure.message : Failure → String
  | queryMissing path => "failed to read query model " ++ path ++ ": " ++ noSuchFile
  | queryMalformed path => "failed to parse query model " ++ path
  | schemaMissing path =>
    "failed to load schema " ++ path ++ ": IO error: " ++ noSuchFile ++ ": " ++ noSuchFile
  | schemaMalformed path =>
    "failed to load schema " ++ path ++ ": Configuration error: invalid mapping schema"
  | configMissing => "IO error: " ++ noSuchFile ++ ": " ++ noSuchFile
  | configMalformed => "Configuration error"
  | notCompiled error => error.message

/-- How deep the lists and records of a query file may stand inside each other. -/
def maxDepth : Nat := 127

/-- A value that is there, or a failure. -/
def orFail {α : Type} (failure : Failure) : Option α → Except Failure α
  | some a => .ok a
  | none => .error failure

/-- What was read, or a failure. -/
def readOrFail {α : Type} (failure : Failure) : Document.Reading α → Except Failure α
  | .ok a => .ok a
  | .error _ => .error failure

def loadQuery (s : Surroundings) (path : String) : Except Failure Query.Model := do
  let d ← orFail (.queryMalformed path) (← orFail (.queryMissing path) (s.file path)).asJson?
  if d.depth ≤ maxDepth then readOrFail (.queryMalformed path) (Query.Model.ofDocument d)
  else throw (.queryMalformed path)

def loadSchema (s : Surroundings) (path : String) : Except Failure Schema := do
  let d ← orFail (.schemaMalformed path) (← orFail (.schemaMissing path) (s.file path)).asToml?
  readOrFail (.schemaMalformed path) (Schema.ofDocument d)

def readOptions (file : File) : Except Failure Options := do
  readOrFail .configMalformed (Options.ofDocument (← orFail .configMalformed file.asToml?))

/-- The options of a run: from the file that is asked for, or else from the user's configuration,
if there is one. -/
def loadOptions (s : Surroundings) : Option String → Except Failure Options
  | some path => do readOptions (← orFail .configMissing (s.file path))
  | none =>
    match s.config? with
    | some file => readOptions file
    | none => .ok {}

/-- The text of a compiled command. -/
def printed (format : Format) (c : Command) : String :=
  match format with
  | .json => c.plainDocument.pretty ++ "\n"
  | .text =>
    "Generated SQL:\n" ++ c.text ++ "\n" ++
      if c.parameters.isEmpty then ""
      else "\nParameters:\n" ++
        String.join (c.parameters.map fun p => "  " ++ p.name ++ " = " ++ p.value.text ++ "\n")

/-- Compiles a query file. -/
def compileFile (s : Surroundings) (query schema : String) (config : Option String)
    (format : Format) : Except Failure String := do
  let model ← loadQuery s query
  let schema ← loadSchema s schema
  let options ← loadOptions s config
  match model.compile Registry.defaults (.ofSchema schema) options with
  | .ok command => return printed format command
  | .error error => throw (.notCompiled error)

/-- The listing of all methods. -/
def methodListing : String :=
  toString Registry.defaults.size ++ " registered signatures\n" ++
    String.join (Registry.defaults.signatures.map fun signature => "  " ++ signature.text ++ "\n")

/-- Whether there is a method for a signature. -/
def signatureLine (text : String) : Except Failure String :=
  match Signature.ofText text with
  | .error fault => .error (.notCompiled (.invalidSignature fault))
  | .ok signature =>
    if Registry.defaults.contains signature then .ok ("✓ " ++ signature.text ++ "\n")
    else .ok ("✗ " ++ signature.text ++ " (no transformer)\n")

def answer (s : Surroundings) : Request → Except Failure String
  | .version => .ok versionLine
  | .methods => .ok methodListing
  | .signature text => signatureLine text
  | .compile query schema config format => compileFile s query schema config format

/-- Runs a command line: status 2 for a wrong usage and 1 for a failure. -/
def run (s : Surroundings) (args : List String) : Outcome :=
  match Request.ofArguments s.schema? args with
  | none => ⟨2, "", "Usage: quill [OPTIONS] <COMMAND>\n"⟩
  | some request =>
    match answer s request with
    | .ok output => ⟨0, output, ""⟩
    | .error failure => ⟨1, "", "Error: " ++ failure.message ++ "\n"⟩

end Comprehension.CommandLine
