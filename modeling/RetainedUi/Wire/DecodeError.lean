/-!
# Why decoding stopped

A patch is read up to the first byte that no complete record starts at. The error says what stood
there; an offset is that of the opcode byte.
-/

namespace RetainedUi

/-- Why the rest of a patch was not read. -/
inductive DecodeError where
  /-- There are fewer bytes than a header has. -/
  | tooShort (length : Nat)
  /-- The first byte is no known version. -/
  | unsupportedVersion (version : UInt8)
  /-- The record at `offset` declares `needed` bytes after its opcode, and `available` are left. -/
  | truncated (offset : Nat) (opcode : UInt8) (needed available : Nat)
  /-- The byte at `offset` starts no record. -/
  | unknownOpcode (offset : Nat) (opcode : UInt8)
  /-- The string record at `offset` declares a negative length. -/
  | negativeLength (offset : Nat) (length : Int32)
deriving DecidableEq, Repr

namespace DecodeError

def message : DecodeError → String
  | tooShort length => s!"patch is {length} bytes, shorter than the 6-byte header"
  | unsupportedVersion version => s!"unsupported patch version {version}"
  | truncated offset opcode needed available =>
    s!"record {opcode} at offset {offset} needs {needed} bytes, {available} available"
  | unknownOpcode offset opcode => s!"unknown opcode {opcode} at offset {offset}"
  | negativeLength offset length =>
    s!"string record at offset {offset} declares negative length {length}"

/-- The error as it is shown in a listing of fields. -/
def detail : DecodeError → String
  | tooShort length => s!"TooShort \x7b len: {length} \x7d"
  | unsupportedVersion version => s!"UnsupportedVersion({version})"
  | truncated offset opcode needed available =>
    s!"Truncated \x7b offset: {offset}, opcode: {opcode}, needed: {needed}, " ++
      s!"available: {available} \x7d"
  | unknownOpcode offset opcode => s!"UnknownOpcode \x7b offset: {offset}, opcode: {opcode} \x7d"
  | negativeLength offset length => s!"NegativeLength \x7b offset: {offset}, len: {length} \x7d"

end DecodeError

end RetainedUi
