import RetainedUi.Config.Device
import RetainedUi.Geometry.Surface

/-!
# Configuration

What a session is created from. Every value may be given; `validate` says which ones a session can
work with, in the order surface, device, output directory.
-/

namespace RetainedUi

inductive OutputKind where
  /-- Each is written as a PPM file. -/
  | ppm
  /-- Each is written as a PNG file. -/
  | png
  /-- All are kept. -/
  | memory
  /-- None is kept. -/
  | null
deriving DecidableEq, Repr, Inhabited

def OutputKind.name : OutputKind → String
  | ppm => "ppm"
  | png => "png"
  | memory => "memory"
  | null => "null"

def OutputKind.all : List OutputKind := [ppm, png, memory, null]

/-- The directory of frame files when none is given. -/
def defaultOutputDir : String := "build-native/out"

structure OutputConfig where
  kind : OutputKind := .ppm
  dir : String := defaultOutputDir
deriving DecidableEq, Repr, Inhabited

/-- What a session is created from. -/
structure Config where
  width : Int32 := 640
  height : Int32 := 480
  deviceType : Int32 := Device.gl.code
  /-- The host's own number for its surface, passed on. -/
  nativeSurface : UInt64 := 0
  output : OutputConfig := {}
deriving DecidableEq, Repr, Inhabited

inductive ConfigError where
  | negativeWidth
  | negativeHeight
  | badSurface (cause : SurfaceError)
  | unknownDevice (code : Int32)
  | noDirectory
  /-- The file at `path` holds no configuration, for the given reason. -/
  | badFile (path reason : String)
  /-- What a host says is wrong. -/
  | other (text : String)
deriving DecidableEq, Repr

def ConfigError.message : ConfigError → String
  | negativeWidth => "surface width must be > 0"
  | negativeHeight => "surface height must be > 0"
  | badSurface cause => cause.message
  | unknownDevice code => s!"unknown device type {code} (expected 0..=3)"
  | noDirectory => "file output requires a non-empty directory"
  | badFile path reason => s!"invalid config '{path}': {reason}"
  | other text => text

namespace Config

def surface (c : Config) : Except ConfigError Surface :=
  if c.width < 0 then .error .negativeWidth
  else if c.height < 0 then .error .negativeHeight
  else (Surface.ofSize c.width.toNatClampNeg c.height.toNatClampNeg).mapError .badSurface

def deviceOf (code : Int32) : Except ConfigError Device :=
  match Device.ofCode? code with
  | some d => .ok d
  | none => .error (.unknownDevice code)

def device (c : Config) : Except ConfigError Device := deviceOf c.deviceType

/-- Frames are written to files. -/
def writesFiles (c : Config) : Bool :=
  match c.output.kind with
  | .ppm | .png => true
  | .memory | .null => false

/-- The surface and the device of a configuration that a session can work with. -/
def validate (c : Config) : Except ConfigError (Surface × Device) := do
  let surface ← c.surface
  let device ← c.device
  if c.output.dir = "" ∧ c.writesFiles then throw .noDirectory
  return (surface, device)

theorem usable_of_surface {c : Config} {s : Surface} (h : c.surface = .ok s) : s.Usable := by
  rw [surface] at h
  split at h
  · cases h
  split at h
  · cases h
  cases hsize : Surface.ofSize c.width.toNatClampNeg c.height.toNatClampNeg with
  | error e => rw [hsize] at h; cases h
  | ok s' => rw [hsize] at h; cases h; exact Surface.usable_of_ofSize hsize

theorem exists_of_bind_eq_ok {ε α β : Type} {x : Except ε α} {f : α → Except ε β} {b : β}
    (h : x >>= f = .ok b) : ∃ a, x = .ok a ∧ f a = .ok b := by
  cases x with
  | error e => cases h
  | ok a => exact ⟨a, rfl, h⟩

/-- The surface of a valid configuration can be drawn on. -/
theorem usable_of_validate {c : Config} {s : Surface} {d : Device} (h : c.validate = .ok (s, d)) :
    s.Usable := by
  obtain ⟨surface, hsurface, h⟩ := exists_of_bind_eq_ok h
  obtain ⟨device, -, h⟩ := exists_of_bind_eq_ok h
  dsimp only at h
  split at h
  · cases h
  · cases h
    exact usable_of_surface hsurface

end Config

end RetainedUi
