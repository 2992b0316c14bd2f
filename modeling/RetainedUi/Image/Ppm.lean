import RetainedUi.Raster.Frame

/-!
# PPM images

A binary PPM image is a text header and the bytes of the pixels.
-/

namespace RetainedUi.Ppm

/-- The header of a frame's image. -/
def header (f : Frame) : String := s!"P6\n{f.width} {f.height} 255\n"

def encode (f : Frame) : ByteArray := (header f).toUTF8 ++ f.bytes

end RetainedUi.Ppm
