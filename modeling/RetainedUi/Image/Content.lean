import RetainedUi.Files.Tree
import RetainedUi.Image.Png
import RetainedUi.Image.Ppm

/-!
# The bytes of files
-/

namespace RetainedUi.FileContent

def toBytes : FileContent → Bytes
  | data bytes => bytes
  | ppm f => (Ppm.encode f).data.toList
  | png f => (Png.encode f).data.toList

end RetainedUi.FileContent
