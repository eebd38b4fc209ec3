import ErSchema.Listing.Format

/-! # Arguments of the command

One diagram file, and options. A long option begins with two dashes and a short
one with a single dash; short ones may stand together behind one dash. A value
follows as the next argument, which then must not look like an option, or is
attached: behind an equals sign, and for a short option also directly. Behind
`--` nothing is an option. Nothing may be given twice. -/

namespace ErSchema.CommandLine

structure Options where
  file : Option String
  format : OutputFormat
  output : Option String
  config : Option String
  columnType : Option String
  maxPasses : Option Nat
  embed : Option String
  verbose : Bool
  deriving DecidableEq, Repr

def Options.standard : Options :=
  { file := none
    format := .html
    output := none
    config := none
    columnType := none
    maxPasses := none
    embed := none
    verbose := false }

/-- What an argument can be. -/
inductive Parameter where
  | file
  | format
  | output
  | config
  | columnType
  | maxPasses
  | embed
  | verbose
  | help
  deriving DecidableEq, Repr

namespace Parameter

def ofLong? (name : List Char) : Option Parameter :=
  match String.ofList name with
  | "format" => some .format
  | "output" => some .output
  | "config" => some .config
  | "column-type" => some .columnType
  | "max-passes" => some .maxPasses
  | "embed" => some .embed
  | "verbose" => some .verbose
  | "help" => some .help
  | _ => none

def ofShort? : Char → Option Parameter
  | 'f' => some .format
  | 'o' => some .output
  | 'c' => some .config
  | 'v' => some .verbose
  | 'h' => some .help
  | _ => none

/-- How a message names it. -/
def display : Parameter → String
  | .file => "[FILE]"
  | .format => "--format <FORMAT>"
  | .output => "--output <OUTPUT>"
  | .config => "--config <CONFIG>"
  | .columnType => "--column-type <COLUMN_TYPE>"
  | .maxPasses => "--max-passes <MAX_PASSES>"
  | .embed => "--embed <OUT.json>"
  | .verbose => "--verbose"
  | .help => "--help"

def takesValue : Parameter → Bool
  | .verbose | .help => false
  | _ => true

end Parameter

inductive Misuse where
  | unexpected (argument : String)
  | missingValue (parameter : Parameter)
  | unwantedValue (parameter : Parameter)
  | repeated (parameter : Parameter)
  | invalidValue (parameter : Parameter) (value : String)
  deriving DecidableEq, Repr

def Misuse.message : Misuse → String
  | .unexpected argument => "unexpected argument '" ++ argument ++ "' found"
  | .missingValue parameter =>
      "a value is required for '" ++ parameter.display ++ "' but none was supplied"
  | .unwantedValue parameter => "unexpected value for '" ++ parameter.display ++ "' found"
  | .repeated parameter =>
      "the argument '" ++ parameter.display ++ "' cannot be used multiple times"
  | .invalidValue parameter value =>
      "invalid value '" ++ value ++ "' for '" ++ parameter.display ++ "'"

/-- Why reading ends before the last argument. -/
inductive Stop where
  | help
  | misuse (misuse : Misuse)
  deriving DecidableEq, Repr

/-! ## Values -/

/-- A path is not empty. -/
def path? (text : String) : Option String :=
  if text.isEmpty then none else some text

def passesLimit : Nat := UInt64.size

def setValue? (options : Options) (parameter : Parameter) (value : String) :
    Option Options :=
  match parameter with
  | .file => (path? value).map fun path => { options with file := some path }
  | .format => (OutputFormat.ofName? value).map fun format => { options with format }
  | .output => (path? value).map fun path => { options with output := some path }
  | .config => (path? value).map fun path => { options with config := some path }
  | .columnType => some { options with columnType := some value }
  | .maxPasses =>
      (Decimal.countBelow? passesLimit value.toList).map fun passes =>
        { options with maxPasses := some passes }
  | .embed => (path? value).map fun path => { options with embed := some path }
  | .verbose | .help => none

/-! ## One argument -/

/-- `awaited` is an option whose value is the next argument. `ended` if no more
options follow. -/
structure Reading where
  options : Options
  given : List Parameter
  awaited : Option Parameter
  ended : Bool

namespace Reading

abbrev Step := Except Stop Reading

def start : Reading := ⟨.standard, [], none, false⟩

def misuse {α : Type} (reason : Misuse) : Except Stop α := .error (.misuse reason)

def give (reading : Reading) (parameter : Parameter) : Step :=
  if reading.given.contains parameter then misuse (.repeated parameter)
  else .ok { reading with given := parameter :: reading.given, awaited := none }

def take (reading : Reading) (parameter : Parameter) (value : List Char) : Step := do
  let value := String.ofList value
  let reading ← reading.give parameter
  match setValue? reading.options parameter value with
  | some options => return { reading with options }
  | none => misuse (.invalidValue parameter value)

def raise (reading : Reading) (parameter : Parameter) : Step := do
  if parameter = .help then .error .help
  else
    let reading ← reading.give parameter
    return { reading with options := { reading.options with verbose := true } }

def await (reading : Reading) (parameter : Parameter) : Reading :=
  { reading with awaited := some parameter }

/-- The one argument that is no option is the file. -/
def readFile (reading : Reading) (argument : List Char) : Step :=
  if reading.given.contains .file then misuse (.unexpected (String.ofList argument))
  else reading.take .file argument

def readLong (reading : Reading) (argument : List Char) : Step :=
  let name := argument.takeWhile (· ≠ '=')
  match Parameter.ofLong? name, argument.dropWhile (· ≠ '=') with
  | none, _ => misuse (.unexpected ("--" ++ String.ofList name))
  | some parameter, [] =>
      if parameter.takesValue then .ok (reading.await parameter)
      else reading.raise parameter
  | some parameter, _ :: value =>
      if parameter.takesValue then reading.take parameter value
      else misuse (.unwantedValue parameter)

def readShorts (reading : Reading) : List Char → Step
  | [] => .ok reading
  | letter :: rest =>
      match Parameter.ofShort? letter, rest with
      | none, _ => misuse (.unexpected (String.ofList ['-', letter]))
      | some parameter, rest =>
          if !parameter.takesValue then do
            let reading ← reading.raise parameter
            reading.readShorts rest
          else
            match rest with
            | [] => .ok (reading.await parameter)
            | '=' :: value => reading.take parameter value
            | value => reading.take parameter value

def readArgument (reading : Reading) (argument : List Char) : Step :=
  match reading.ended, argument, reading.awaited with
  | false, '-' :: _ :: _, some parameter => misuse (.missingValue parameter)
  | false, value, some parameter => reading.take parameter value
  | false, ['-', '-'], none => .ok { reading with ended := true }
  | false, '-' :: '-' :: long, none => reading.readLong long
  | false, '-' :: letter :: rest, none => reading.readShorts (letter :: rest)
  | _, file, _ => reading.readFile file

def finish (reading : Reading) : Except Stop Options :=
  match reading.awaited with
  | some parameter => misuse (.missingValue parameter)
  | none => .ok reading.options

end Reading

def readArguments (arguments : List String) : Except Stop Options := do
  let reading ← arguments.foldlM (fun reading argument =>
    reading.readArgument argument.toList) Reading.start
  reading.finish

example : (readArguments ["-vfsql", "a.json"]).toOption =
    some { Options.standard with file := some "a.json", format := .sql, verbose := true } := by
  decide +kernel

example : readArguments ["-o", "-v"] = .error (.misuse (.missingValue .output)) := by
  cbv

end ErSchema.CommandLine
