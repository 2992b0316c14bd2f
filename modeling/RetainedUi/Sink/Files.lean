import RetainedUi.Files.Tree
import RetainedUi.Sink.Basic

/-!
# Sinks that write files

Each frame becomes a file of its own in a directory that is made at the start.
-/

namespace RetainedUi

/-- The image format of frame files. -/
inductive FrameFormat where
  | ppm
  | png
deriving DecidableEq, Repr

namespace FrameFormat

/-- The end of a file name. -/
def suffix : FrameFormat → String
  | ppm => ".ppm"
  | png => ".png"

/-- A file that holds a frame, if the format has an image of its size: a PNG image has pixels. -/
def content? (f : Frame) : FrameFormat → Option FileContent
  | ppm => some (.ppm f)
  | png => if f.width = 0 ∨ f.height = 0 then none else some (.png f)

/-- What is said to have failed when a file cannot be written. -/
def task : FrameFormat → FileTask
  | ppm => .createFrame
  | png => .writeFrame

/-- The path of the frame with an index. -/
def framePath (format : FrameFormat) (dir : String) (index : Nat) : String :=
  Path.join dir s!"frame_{index}{format.suffix}"

/-- Writes a frame to a file. The file is made first, and stays empty when there is no image. -/
def write (format : FrameFormat) (f : Frame) (path : String) (tree : FileTree) :
    Except FileError Unit × FileTree :=
  let content := format.content? f
  match tree.write path (content.getD (.data [])) with
  | .error e => (.error e, tree)
  | .ok tree => (if content.isSome then .ok () else .error .noPixels, tree)

end FrameFormat

/-- Writes frames into a directory of a file tree. -/
structure FileSink where
  format : FrameFormat
  dir : String
  tree : FileTree
  config : Option SinkConfig := none

instance : FrameSink FileSink where
  start c s :=
    match s.tree.makeDirectories s.dir with
    | (.ok (), tree) => (.ok (), { s with tree, config := some c })
    | (.error e, tree) => (.error (.file .makeOutputDir s.dir e), { s with tree })
  push i f s :=
    match SinkConfig.check s.config f with
    | .error e => (.error e, s)
    | .ok () =>
      let path := s.format.framePath s.dir i
      let (answer, tree) := s.format.write f path s.tree
      (answer.mapError (.file s.format.task path), { s with tree })
  finish s := (.ok (), s)

end RetainedUi
