import RetainedUi.Raster.Frame

/-!
# PNG images

An image of three bytes a pixel whose rows are neither filtered nor compressed: a signature, a
header chunk, one data chunk and an end chunk, each with a checksum.
-/

namespace RetainedUi.Png

/-! ## Checksums -/

/-- One step of the cyclic redundancy check, bit by bit. -/
def crcStep (bits : Nat) (c : UInt32) : UInt32 :=
  match bits with
  | 0 => c
  | bits + 1 => crcStep bits (if c &&& 1 = 1 then (0xEDB88320 : UInt32) ^^^ (c >>> 1) else c >>> 1)

/-- The check of a byte, for every byte. -/
def crcTable : Array UInt32 := Array.ofFn fun i : Fin 256 => crcStep 8 (.ofNat i)

/-- The cyclic redundancy check of bytes. -/
def crc (bytes : ByteArray) : UInt32 :=
  let sum := bytes.foldl (fun (c : UInt32) b =>
    crcTable.getD ((c ^^^ b.toUInt32) &&& 0xFF).toNat 0 ^^^ (c >>> 8)) 0xFFFFFFFF
  ~~~sum

/-- The two running sums of a compressed stream. -/
def adler (bytes : ByteArray) : UInt32 :=
  let (a, b) := bytes.foldl (fun (a, b) byte =>
    let a := (a + byte.toUInt32) % 65521
    (a, (b + a) % 65521)) ((1 : UInt32), (0 : UInt32))
  b <<< 16 ||| a

/-! ## Chunks -/

/-- A number in four bytes, the most significant first. -/
def word (n : UInt32) : ByteArray :=
  ⟨#[(n >>> 24).toUInt8, (n >>> 16).toUInt8, (n >>> 8).toUInt8, n.toUInt8]⟩

/-- A chunk: its length, its name and data, and the check of these two. -/
def chunk (name : String) (data : ByteArray) : ByteArray :=
  let body := name.toUTF8 ++ data
  word (.ofNat data.size) ++ body ++ word (crc body)

/-- The longest block that is stored as it is. -/
def maxBlock : Nat := 65535

/-- Data from a position on, in blocks stored as they are; at most `blocks` of them are full. -/
def stored (data : ByteArray) (start : Nat) (out : ByteArray) : (blocks : Nat) → ByteArray
  | 0 => out
  | blocks + 1 =>
    let stop := min data.size (start + maxBlock)
    let n : UInt16 := .ofNat (stop - start)
    let last : UInt8 := if stop = data.size then 1 else 0
    let head : ByteArray := ⟨#[last, n.toUInt8, (n >>> 8).toUInt8, (~~~n).toUInt8,
      (~~~n >>> 8).toUInt8]⟩
    let out := out ++ head ++ data.extract start stop
    if stop = data.size then out else stored data stop out blocks

/-- Data as a compressed stream that compresses nothing. -/
def zlib (data : ByteArray) : ByteArray :=
  stored data 0 ⟨#[0x78, 0x01]⟩ (data.size / maxBlock + 1) ++ word (adler data)

/-! ## Images -/

/-- The rows of a frame, each after a byte that says it is not filtered. -/
def rows (f : Frame) : ByteArray :=
  f.pixels.foldl (fun (out, x) c =>
    let out := if x = 0 then out.push 0 else out
    (((out.push c.r).push c.g).push c.b, if x + 1 = f.width then 0 else x + 1))
    (ByteArray.empty, 0) |>.1

def encode (f : Frame) : ByteArray :=
  let header := word (.ofNat f.width) ++ word (.ofNat f.height) ++ ⟨#[8, 2, 0, 0, 0]⟩
  ⟨#[0x89, 0x50, 0x4E, 0x47, 0x0D, 0x0A, 0x1A, 0x0A]⟩ ++ chunk "IHDR" header ++
    chunk "IDAT" (zlib (rows f)) ++ chunk "IEND" .empty

end RetainedUi.Png
