import ErSchema.CommandLine.Run

/-! # The command on a disk -/

namespace ErSchema.CommandLine

def accessError (error : IO.Error) : AccessError :=
  match error with
  | .noFileOrDirectory .. => .missing
  | .permissionDenied .. => .denied
  | .inappropriateType _ 20 _ => .notDirectory
  | .inappropriateType _ 21 _ => .isDirectory
  | other => .other (toString other)

def attempt {α : Type} (action : IO α) : IO (Except AccessError α) := do
  try return .ok (← action)
  catch error => return .error (accessError error)

def asText : Except AccessError ByteArray → Except AccessError String
  | .error error => .error error
  | .ok bytes =>
      match String.fromUTF8? bytes with
      | some text => .ok text
      | none => .error .notText

def disk : Host IO :=
  { readFile := fun path => return asText (← attempt (IO.FS.readBinFile path))
    readInput := do
      let input ← IO.getStdin
      return asText (← attempt input.readBinToEnd)
    writeFile := fun path text => attempt (IO.FS.writeFile path text)
    isDirectory := fun path => do
      match ← attempt (IO.FS.realPath path) with
      | .ok found => found.isDir
      | .error _ => return false
    print := fun text => IO.print text
    log := fun text => IO.eprintln text }

def usage : String :=
  "Derive a relational schema and SQL DDL from a saved ER diagram\n\n" ++
  "Usage: [OPTIONS] [FILE]\n\n" ++
  "Arguments:\n" ++
  "  [FILE]  Diagram JSON file (reads from stdin if not provided)\n\n" ++
  "Options:\n" ++
  "  -f, --format <FORMAT>            Output format: html, text, sql, json [default: html]\n" ++
  "  -o, --output <OUTPUT>            Write output to a file; with sql, a directory " ++
  "receives database.sql\n" ++
  "  -c, --config <CONFIG>            YAML configuration file\n" ++
  "      --column-type <COLUMN_TYPE>  SQL type given to every column\n" ++
  "      --max-passes <MAX_PASSES>    Cap on key propagation passes\n" ++
  "      --embed <OUT.json>           Write a copy of the diagram with the schema " ++
  "listing embedded\n" ++
  "  -v, --verbose                    Log derivation steps to stderr\n" ++
  "  -h, --help                       Print help\n"

end ErSchema.CommandLine

open ErSchema.CommandLine in
def main (arguments : List String) : IO UInt32 := do
  let outcome ← start disk arguments
  match outcome with
  | .helped => IO.print usage
  | _ => pure ()
  match outcome.complaint with
  | some text => IO.eprintln text
  | none => pure ()
  return outcome.exitCode.toUInt32
