import RetainedUi.Sink.Files

/-!
# The sink of a configuration
-/

namespace RetainedUi

/-- One of the sinks that a configuration can select, beside the files around it. -/
inductive SelectedSink where
  | memory (sink : MemorySink) (tree : FileTree)
  | null (sink : NullSink) (tree : FileTree)
  | files (sink : FileSink)

namespace SelectedSink

/-- The sink that a configuration selects. -/
def ofConfig (c : OutputConfig) (tree : FileTree) : SelectedSink :=
  match c.kind with
  | .ppm => files { format := .ppm, dir := c.dir, tree }
  | .png => files { format := .png, dir := c.dir, tree }
  | .memory => memory {} tree
  | .null => null {} tree

/-- The files as the sink left them. -/
def tree : SelectedSink → FileTree
  | memory _ tree | null _ tree => tree
  | files sink => sink.tree

instance : FrameSink SelectedSink where
  start c
    | memory s tree => (FrameSink.start c s).map id (memory · tree)
    | null s tree => (FrameSink.start c s).map id (null · tree)
    | files s => (FrameSink.start c s).map id files
  push i f
    | memory s tree => (FrameSink.push i f s).map id (memory · tree)
    | null s tree => (FrameSink.push i f s).map id (null · tree)
    | files s => (FrameSink.push i f s).map id files
  finish
    | memory s tree => (FrameSink.finish s).map id (memory · tree)
    | null s tree => (FrameSink.finish s).map id (null · tree)
    | files s => (FrameSink.finish s).map id files

end SelectedSink

end RetainedUi
