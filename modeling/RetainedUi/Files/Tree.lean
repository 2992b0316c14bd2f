import Std.Data.ExtTreeMap
import RetainedUi.Files.FileError
import RetainedUi.Files.Path
import RetainedUi.Raster.Frame
import RetainedUi.Wire.Word

/-!
# File trees

The files and directories that a program sees, as a value. Operations answer as a file system does:
every directory on the way must exist, and a path is followed part by part.
-/

namespace RetainedUi

/-- What a file holds: bytes, or a frame in one of two image formats. -/
inductive FileContent where
  | data (bytes : Bytes)
  | ppm (frame : Frame)
  | png (frame : Frame)
deriving DecidableEq

inductive FileEntry where
  | directory
  | file (content : FileContent)
deriving DecidableEq

/-- A place that a path leads to. -/
inductive Location where
  | here
  | top
  /-- The directory around the working directory, or around such a directory. -/
  | around (l : Location)
  /-- A place in a directory, with the path that it is listed under. -/
  | within (dir : Location) (path : String)
deriving DecidableEq, Repr

namespace Location

/-- The path that a location is listed under. -/
def path : Location → String
  | here => ""
  | top => "/"
  | around l => Path.join l.path ".."
  | within _ path => path

/-- The location of a name in a directory. -/
def enter (l : Location) (name : String) : Location :=
  if name = "." then l
  else if name = ".." then
    match l with
    | here | around _ => around l
    | top => top
    | within dir _ => dir
  else within l (Path.join l.path name)

end Location

/-- The entries in and below the working directory, by path. -/
structure FileTree where
  entries : Std.ExtTreeMap String FileEntry := ∅

namespace FileTree

def empty : FileTree := {}

/-- The longest name of an entry, in bytes. -/
def maxName : Nat := 255

def maxPath : Nat := 4095

/-- What is at a location. The working directory, those around it and the top are there in any case. -/
def entry? (t : FileTree) : Location → Option FileEntry
  | .within _ path => t.entries[path]?
  | .here | .top | .around _ => some .directory

/-! ## Following a path -/

/-- Refuses a location that is no directory. -/
def requireDirectory (t : FileTree) (l : Location) : Except FileError Unit :=
  match t.entry? l with
  | some .directory => .ok ()
  | some (.file _) => .error .notADirectory
  | none => .error .notFound

/-- Refuses a name that no entry can have. -/
def checkName (name : String) : Except FileError Unit :=
  if maxName < name.utf8ByteSize then .error .nameTooLong else .ok ()

/-- Enters a name from a directory. -/
def descend (t : FileTree) (l : Location) (name : String) : Except FileError Location := do
  t.requireDirectory l
  checkName name
  return l.enter name

/-- Refuses text that is no path. -/
def checkPath (path : String) : Except FileError Unit := do
  if '\x00' ∈ path.toList then throw .nulInPath
  if path = "" then throw .notFound
  if maxPath < path.utf8ByteSize then throw .nameTooLong

def start (path : String) : Location := if Path.isAbsolute path then .top else .here

def locate (t : FileTree) (path : String) : Except FileError Location := do
  checkPath path
  (Path.names path).foldlM t.descend (start path)

/-- The directory that a path leads to and the last name, if it is that of an entry to make. -/
def locateNew (t : FileTree) (path : String) : Except FileError (Location × Option String) := do
  checkPath path
  let names := Path.names path
  let dir ← names.dropLast.foldlM t.descend (start path)
  t.requireDirectory dir
  return (dir, names.getLast?.filter fun name => name ≠ "." && name ≠ "..")

/-! ## Reading and writing -/

/-- A path leads to a directory. -/
def isDirectory (t : FileTree) (path : String) : Bool :=
  match t.locate path with
  | .ok l => t.entry? l = some .directory
  | .error _ => false

/-- What the file at a path holds. -/
def read (t : FileTree) (path : String) : Except FileError FileContent := do
  match t.entry? (← t.locate path) with
  | none => throw .notFound
  | some .directory => throw .isADirectory
  | some (.file content) =>
    if Path.endsInSlash path then throw .notADirectory
    return content

/-- Puts a file at a path, in place of a file that is there. -/
def write (t : FileTree) (path : String) (content : FileContent) : Except FileError FileTree := do
  match ← t.locateNew path with
  | (_, none) => throw .isADirectory
  | (dir, some name) =>
    if Path.endsInSlash path then throw .isADirectory
    checkName name
    let l := dir.enter name
    if t.entry? l = some .directory then throw .isADirectory
    return ⟨t.entries.insert l.path (.file content)⟩

def makeDirectory (t : FileTree) (path : String) : Except FileError FileTree := do
  match ← t.locateNew path with
  | (_, none) => throw .alreadyExists
  | (dir, some name) =>
    checkName name
    let l := dir.enter name
    if (t.entry? l).isSome then throw .alreadyExists
    return ⟨t.entries.insert l.path .directory⟩

/-- Makes the first of some paths a directory, each of the others being the parent of the one
before it and made first where it is missing. What was made stays when a later one fails. -/
def makeDirectoriesOf (t : FileTree) (paths : List String) : Except FileError Unit × FileTree :=
  match paths with
  | [] => (.ok (), t)
  | "" :: _ => (.ok (), t)
  | path :: parents =>
    match t.makeDirectory path with
    | .ok t => (.ok (), t)
    | .error .notFound =>
      match t.makeDirectoriesOf parents with
      | (.error e, t) => (.error e, t)
      | (.ok (), t) =>
        match t.makeDirectory path with
        | .ok t => (.ok (), t)
        | .error e => if t.isDirectory path then (.ok (), t) else (.error e, t)
    | .error e => if t.isDirectory path then (.ok (), t) else (.error e, t)

/-- Makes a directory and those above it, as far as they are missing. -/
def makeDirectories (t : FileTree) (path : String) : Except FileError Unit × FileTree :=
  t.makeDirectoriesOf (Path.ancestors path)

end FileTree

end RetainedUi
