import ErSchema.CommandLine.Arguments
import ErSchema.Config.Settings
import ErSchema.Embedding
import ErSchema.Failure

/-! # A run of the command

What a run does is written against an interface: a host reads and writes files
for it. The same run works on a disk and on files in memory. -/

namespace ErSchema.CommandLine

/-- Why a file cannot be read or written. -/
inductive AccessError where
  | missing
  | denied
  | notDirectory
  | isDirectory
  | notText
  | other (reason : String)
  deriving DecidableEq, Repr

def AccessError.message : AccessError → String
  | .missing => "No such file or directory (os error 2)"
  | .denied => "Permission denied (os error 13)"
  | .notDirectory => "Not a directory (os error 20)"
  | .isDirectory => "Is a directory (os error 21)"
  | .notText => "stream did not contain valid UTF-8"
  | .other reason => reason

structure Host (m : Type → Type) where
  readFile : String → m (Except AccessError String)
  readInput : m (Except AccessError String)
  writeFile : String → String → m (Except AccessError Unit)
  isDirectory : String → m Bool
  print : String → m Unit
  log : String → m Unit

/-! ## Failures -/

inductive RunFailure where
  | invalid (failure : Failure)
  | reading (path : String) (error : AccessError)
  | readingInput (error : AccessError)
  | writing (path : String) (error : AccessError)

/-- A failure of the settings or of the diagram is followed by its reason once
more. -/
def RunFailure.message : RunFailure → String
  | .invalid failure => failure.message ++ ": " ++ failure.reason
  | .reading path error => "failed to read " ++ path ++ ": " ++ error.message
  | .readingInput error => "failed to read stdin: " ++ error.message
  | .writing path error => "failed to write " ++ path ++ ": " ++ error.message

section

variable {m : Type → Type} [Monad m]

abbrev Run (m : Type → Type) := ExceptT RunFailure m

def orFail {α ε : Type} (failure : ε → RunFailure) (action : m (Except ε α)) : Run m α := do
  match ← action with
  | .ok value => return value
  | .error error => throw (failure error)

/-! ## Settings and diagram -/

def readConfig (host : Host m) : Option String → Run m Config
  | none => return .standard
  | some path => do
      let text ← orFail (fun error => .invalid (.file path error.message))
        (host.readFile path)
      orFail (fun reason => .invalid (.config reason)) (pure (Config.read text))

/-- Options win over the settings file. -/
def Options.override (options : Options) (config : Config) : Config :=
  { config with
    columnType := options.columnType.getD config.columnType
    maxPropagationPasses := options.maxPasses.or config.maxPropagationPasses }

def readDocument (host : Host m) (file : Option String) : Run m Document := do
  let text ←
    match file with
    | some path => orFail (.reading path) (host.readFile path)
    | none => orFail .readingInput host.readInput
  orFail (fun reason => .invalid (.document reason)) (pure (Document.read text))

/-! ## Output -/

def joinPath (directory name : String) : String :=
  if directory.endsWith "/" then directory ++ name else directory ++ "/" ++ name

/-- A script goes into a directory under a name of its own. -/
def target (host : Host m) (format : OutputFormat) (path : String) : Run m String := do
  if format = .sql && (← host.isDirectory path) then return joinPath path Sql.scriptName
  else return path

def write (host : Host m) (path text : String) : Run m Unit :=
  orFail (.writing path) (host.writeFile path text)

def deliver (host : Host m) (options : Options) (text : String) : Run m Unit :=
  match options.output with
  | none => host.print text
  | some path => do write host (← target host options.format path) text

def logDiagnostics (host : Host m) (verbose : Bool) (derivation : Derivation) :
    Run m Unit :=
  derivation.diagnostics.forM fun diagnostic =>
    if verbose || diagnostic.severity ≠ .note then host.log diagnostic.message
    else pure ()

/-! ## Everything together -/

/-- The diagram with its listing is written last, when the listing is out. -/
def run (host : Host m) (options : Options) : Run m Unit := do
  let config := options.override (← readConfig host options.config)
  let document ← readDocument host options.file
  let derivation := Derivation.ofDiagram document.toDiagram config.maxPropagationPasses
  logDiagnostics host options.verbose derivation
  deliver host options (options.format.render derivation config)
  match options.embed with
  | none => return
  | some path =>
      write host path (document.embed (Html.schema derivation.schema config)).write

inductive Outcome where
  | done
  | helped
  | misused (misuse : Misuse)
  | failed (failure : RunFailure)

def start (host : Host m) (arguments : List String) : m Outcome := do
  match readArguments arguments with
  | .error .help => return .helped
  | .error (.misuse misuse) => return .misused misuse
  | .ok options =>
      match ← (run host options).run with
      | .ok () => return .done
      | .error failure => return .failed failure

end

def Outcome.exitCode : Outcome → Nat
  | .done | .helped => 0
  | .failed _ => 1
  | .misused _ => 2

/-- What is written to the error stream in the end. -/
def Outcome.complaint : Outcome → Option String
  | .done | .helped => none
  | .failed failure => some ("ERROR: " ++ failure.message)
  | .misused reason => some ("error: " ++ reason.message)

end ErSchema.CommandLine
