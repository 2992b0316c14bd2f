/-!
# Devices

The graphics device of the host. It is checked and passed on; drawing is the same for all.
-/

namespace RetainedUi

/-- The device that a host's surface belongs to. -/
inductive Device where
  | metal
  | gles
  | d3d11
  | gl
deriving DecidableEq, Repr, Inhabited

namespace Device

def code : Device → Int32
  | metal => 0
  | gles => 1
  | d3d11 => 2
  | gl => 3

/-- The device of a number, if it is one. -/
def ofCode? (n : Int32) : Option Device :=
  match n with
  | 0 => some metal
  | 1 => some gles
  | 2 => some d3d11
  | 3 => some gl
  | _ => none

def name : Device → String
  | metal => "Metal"
  | gles => "Gles"
  | d3d11 => "D3d11"
  | gl => "Gl"

end Device

end RetainedUi
