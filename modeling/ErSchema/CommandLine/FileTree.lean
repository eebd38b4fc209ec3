import ErSchema.CommandLine.Run

/-! # Files in memory

A tree of directories and texts in which the command can run. Its top is the
working directory, and nothing outside of it is found. -/

namespace ErSchema.CommandLine

/-- A place is the list of names that lead to it. -/
abbrev Place := List String

structure FileTree where
  directories : List Place
  files : List (Place × String)

namespace FileTree

def empty : FileTree := ⟨[], []⟩

def hasDirectory (tree : FileTree) (place : Place) : Bool :=
  place.isEmpty || tree.directories.contains place

def text? (tree : FileTree) (place : Place) : Option String :=
  tree.files.lookup place

/-! ## Paths -/

def names (path : String) : List String :=
  (path.splitOn "/").filter fun name => !name.isEmpty

/-- What a path leads to. A free place has a directory around it. -/
inductive Target where
  | directory
  | file (place : Place) (text : String)
  | free (place : Place)
  deriving DecidableEq, Repr

def walk (tree : FileTree) (here : Place) : List String → Except AccessError Target
  | [] => .ok .directory
  | "." :: rest => tree.walk here rest
  | ".." :: rest =>
      if here.isEmpty then .error .missing else tree.walk here.dropLast rest
  | name :: rest =>
      let place := here ++ [name]
      if tree.hasDirectory place then tree.walk place rest
      else
        match tree.text? place, rest with
        | some text, [] => .ok (.file place text)
        | some _, _ :: _ => .error .notDirectory
        | none, [] => .ok (.free place)
        | none, _ :: _ => .error .missing

def target (tree : FileTree) (path : String) : Except AccessError Target :=
  if path.isEmpty || path.startsWith "/" then .error .missing
  else tree.walk [] (names path)

/-- A slash at the end asks for a directory. -/
def asksDirectory (path : String) : Bool :=
  path.endsWith "/"

/-! ## Reading and writing -/

def read (tree : FileTree) (path : String) : Except AccessError String := do
  match ← tree.target path with
  | .directory => .error .isDirectory
  | .free _ => .error .missing
  | .file _ text => if asksDirectory path then .error .notDirectory else return text

def put (tree : FileTree) (place : Place) (text : String) : FileTree :=
  { tree with files := (place, text) :: tree.files.filter fun file => file.1 ≠ place }

def write (tree : FileTree) (path text : String) : Except AccessError FileTree := do
  match ← tree.target path with
  | .directory => .error .isDirectory
  | .free place | .file place _ =>
      if asksDirectory path then .error .isDirectory else return tree.put place text

def isDirectory (tree : FileTree) (path : String) : Bool :=
  match tree.target path with
  | .ok .directory => true
  | _ => false

/-! ## Building a tree -/

/-- Make a directory and those around it. -/
def makeDirectory (tree : FileTree) (place : Place) : FileTree :=
  { tree with
    directories :=
      (List.range place.length).map (fun count => place.take (count + 1)) ++
        tree.directories }

/-- Put a text where a path leads from the top, and make the directories around
it. -/
def addFile (tree : FileTree) (path text : String) : FileTree :=
  (tree.makeDirectory (names path).dropLast).put (names path) text

def addDirectory (tree : FileTree) (path : String) : FileTree :=
  tree.makeDirectory (names path)

example : (((empty.makeDirectory ["a"]).put ["a", "b"] "text").walk []
    ["a", ".", "b"]).toOption = some (.file ["a", "b"] "text") := by
  decide +kernel

end FileTree

/-! ## Running in memory -/

/-- The files, the text on the input, and what was printed. -/
structure Session where
  tree : FileTree
  input : String
  printed : String

namespace Session

def writeFile (path text : String) : StateM Session (Except AccessError Unit) := do
  let session ← get
  match session.tree.write path text with
  | .error error => return .error error
  | .ok tree =>
      set { session with tree }
      return .ok ()

def print (text : String) : StateM Session Unit :=
  modify fun session => { session with printed := session.printed ++ text }

def host : Host (StateM Session) :=
  { readFile := fun path => do return (← get).tree.read path
    readInput := do return .ok (← get).input
    writeFile := writeFile
    isDirectory := fun path => do return (← get).tree.isDirectory path
    print := print
    log := fun _ => return }

def start (session : Session) (arguments : List String) : Outcome × Session :=
  (CommandLine.start host arguments).run session

end Session

end ErSchema.CommandLine
