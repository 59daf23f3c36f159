import DeferredOpen.Files.Change

/-!
# The recorder

A program that writes its arguments into a file of the directory that it is run in, and succeeds.
-/

namespace DeferredOpen.Recorder

def path : Path := .ofString "recorded"

/-- What the recorder writes: its arguments, each with a line end. -/
def recording (arguments : List Bytes) : Bytes := arguments.flatMap (· ++ [0x0A])

def run (files : Files) (arguments : List Bytes) : Files :=
  files.attempt fun files => files.write path (.data (recording arguments)) false

end DeferredOpen.Recorder
