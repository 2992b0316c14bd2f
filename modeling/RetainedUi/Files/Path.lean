/-!
# Paths

A path is text; slashes stand between its parts. Empty parts and a part `.` after the first say
nothing.
-/

namespace RetainedUi.Path

/-- The parts of characters, the first of which begins with a piece that was read before, in reverse. -/
def partsAfter (piece : List Char) : List Char → List String
  | [] => [.ofList piece.reverse]
  | c :: cs =>
    if c = '/' then .ofList piece.reverse :: partsAfter [] cs else partsAfter (c :: piece) cs

/-- What stands between the slashes of a path. -/
def parts (path : String) : List String := partsAfter [] path.toList

/-- The parts that name something to enter. -/
def names (path : String) : List String := (parts path).filter (· ≠ "")

/-- The path starts at the top, not at the working directory. -/
def isAbsolute (path : String) : Bool := path.startsWith "/"

/-- The path can only mean a directory. -/
def endsInSlash (path : String) : Bool := path.endsWith "/"

def join (dir name : String) : String :=
  if dir = "" then name
  else if endsInSlash dir then dir ++ name
  else dir ++ "/" ++ name

/-- Takes the parts off the end of `first :: later` that say nothing. -/
def trimEnd (first : String) (later : List String) : List String :=
  let kept := (later.reverse.dropWhile fun part => part = "" || part = ".").reverse
  if kept = [] ∧ first = "" then [] else first :: kept

/-- The path without its last name; there is none without a name to drop. -/
def parent? (path : String) : Option String :=
  match parts path with
  | [] => none
  | first :: later =>
    match trimEnd first later with
    | [] => none
    | [_] => some ""
    | first :: later =>
      match trimEnd first later.dropLast with
      | [] => some "/"
      | kept => some ("/".intercalate kept)

/-- A path, its parent and so on, at most `n` of them. -/
def ancestorsWithin (n : Nat) (path : String) : List String :=
  match n with
  | 0 => []
  | n + 1 =>
    match parent? path with
    | some parent => path :: ancestorsWithin n parent
    | none => [path]

/-- A path, its parent and so on to the last. -/
def ancestors (path : String) : List String := ancestorsWithin (path.length + 2) path

end RetainedUi.Path
