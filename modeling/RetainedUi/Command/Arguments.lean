import RetainedUi.Config.Basic

/-!
# Command-line arguments

A command and its options, each given as `--name value` or `--name=value` and at most once. A value
that starts with a dash can only be given in the second form.
-/

namespace RetainedUi

structure RenderArgs where
  patch : String
  frames : Nat := 1
  config : Option String := none
  width : Option Int32 := none
  height : Option Int32 := none
  device : Option Int32 := none
  outDir : Option String := none
  format : Option OutputKind := none
deriving DecidableEq, Repr

/-- What a command line asks for. -/
inductive Command where
  /-- Applies a patch file and renders frames. -/
  | render (args : RenderArgs)
  /-- Lists the records of a patch file. -/
  | dump (patch : String)
  | demo (out : String)
  | version
deriving DecidableEq, Repr

namespace Command

/-! ## Values -/

/-- The digits of a number after an optional plus. -/
def natural? (text : String) : Option Nat :=
  let digits := match text.toList with
    | '+' :: ds => ds
    | ds => ds
  if digits.isEmpty || !digits.all Char.isDigit then none
  else some (digits.foldl (fun n d => n * 10 + (d.toNat - '0'.toNat)) 0)

def uint64? (text : String) : Option Nat := (natural? text).filter (· < UInt64.size)

/-- A signed number of 32 bits. -/
def int32? (text : String) : Option Int32 := do
  let n : Int ← match text.toList with
    | '-' :: ds => if ds.head? = some '+' then none else (natural? (.ofList ds)).map (-·)
    | _ => (natural? text).map Int.ofNat
  if -2147483648 ≤ n ∧ n ≤ 2147483647 then some (.ofInt n) else none

def path? (text : String) : Option String := if text = "" then none else some text

/-- A kind of output that can be asked for. -/
def format? (text : String) : Option OutputKind :=
  match text with
  | "ppm" => some .ppm
  | "png" => some .png
  | "null" => some .null
  | _ => none

/-! ## Options -/

/-- The name of a long option, and the value given with it. -/
def splitOption? (arg : String) : Option (String × Option String) :=
  match arg.toList with
  | '-' :: '-' :: rest =>
    let name := rest.takeWhile (· ≠ '=')
    match rest.drop name.length with
    | _ :: value => some (.ofList name, some (.ofList value))
    | [] => some (.ofList name, none)
  | _ => none

/-- The argument can be the value of the option before it. -/
def isValue (arg : String) : Bool := arg = "-" || !arg.startsWith "-"

/-- The options of a command line with their values, each one known and given once. -/
def options? (known : List String) : List String → Option (List (String × String))
  | [] => some []
  | ["--"] => some []
  | arg :: rest => do
    let (name, given) ← splitOption? arg
    if name ∉ known then none
    match given, rest with
    | some value, rest => add name value (← options? known rest)
    | none, value :: rest => if isValue value then add name value (← options? known rest) else none
    | none, [] => none
where
  /-- Adds an option that is not yet there. -/
  add (name value : String) (later : List (String × String)) : Option (List (String × String)) :=
    if (later.lookup name).isSome then none else some ((name, value) :: later)

/-- The value of an option that may be left out. -/
def optional? {α : Type} (options : List (String × String)) (name : String)
    (read : String → Option α) : Option (Option α) :=
  match options.lookup name with
  | none => some none
  | some text => (read text).map some

/-- The value of an option that must be given. -/
def required? {α : Type} (options : List (String × String)) (name : String)
    (read : String → Option α) : Option α :=
  (options.lookup name).bind read

/-! ## Commands -/

/-- What the options of `render` ask for. -/
def renderArgs? (args : List String) : Option RenderArgs := do
  let options ← options?
    ["patch", "frames", "config", "width", "height", "device", "out-dir", "format"] args
  return {
    patch := ← required? options "patch" path?
    frames := (← optional? options "frames" uint64?).getD 1
    config := ← optional? options "config" path?
    width := ← optional? options "width" int32?
    height := ← optional? options "height" int32?
    device := ← optional? options "device" int32?
    outDir := ← optional? options "out-dir" path?
    format := ← optional? options "format" format? }

/-- What a command line asks for; it may ask for nothing that can be done. -/
def ofArgs? : List String → Option Command
  | "render" :: args => (renderArgs? args).map render
  | "dump" :: args => do return dump (← required? (← options? ["patch"] args) "patch" path?)
  | "demo" :: args => do return demo (← required? (← options? ["out"] args) "out" path?)
  | arg :: _ => if arg = "--version" || arg.startsWith "-V" then some version else none
  | [] => none

end Command

end RetainedUi
