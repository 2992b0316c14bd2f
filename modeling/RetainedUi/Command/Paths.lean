import RetainedUi.Command.Render

/-!
# Paths of commands

A command only touches paths that its arguments and its configuration name, so these tell what has
to be known of the files before it is run.
-/

namespace RetainedUi

/-- The files that hold the frames of a configuration, as far as they are written to files. -/
def Config.framePaths (c : Config) (frames : Nat) : List String :=
  let paths (format : FrameFormat) := (List.range frames).map (format.framePath c.output.dir)
  match c.output.kind with
  | .ppm => paths .ppm
  | .png => paths .png
  | .memory | .null => []

/-- The paths that a command may read or write. Frame files are only among them once the tree holds
the configuration file. -/
def Command.paths (tree : FileTree) : Command → List String
  | render args =>
    let given := args.patch :: args.config.toList
    match args.configIn tree with
    | .ok c => given ++ c.framePaths args.frames
    | .error _ => given
  | dump patch => [patch]
  | demo out => [out]
  | version => []

end RetainedUi
