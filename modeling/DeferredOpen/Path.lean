import DeferredOpen.Text.Quoted

/-!
# Paths

A path is any bytes; the slash separates names. Two paths are the same when their components are:
repeated and trailing slashes do not count, and neither does a single dot, unless the path starts
with it.
-/

namespace DeferredOpen

structure Path where
  bytes : Bytes
  deriving DecidableEq, Repr, Inhabited

namespace Path

def slash : UInt8 := 0x2F

/-- The name of a directory inside itself. -/
def dot : Bytes := [0x2E]

/-- The name of the directory above. -/
def dotDot : Bytes := [0x2E, 0x2E]

def ofString (s : String) : Path := ⟨Utf8.encode s⟩

/-- Whether a path holds a NUL, which the system takes for its end. -/
def holdsNul (p : Path) : Bool := p.bytes.contains 0

/-- The stretches between slashes, empty ones too. -/
def stretches : Bytes → List Bytes
  | [] => [[]]
  | b :: rest =>
    if b = slash then [] :: stretches rest
    else match stretches rest with
      | s :: ss => (b :: s) :: ss
      | [] => [[b]]

def isAbsolute (p : Path) : Bool := p.bytes.head? = some slash

/-- A path that ends with a slash and so stands for a directory. -/
def endsWithSlash (p : Path) : Bool := p.bytes.getLast? = some slash

def names (p : Path) : List Bytes := (stretches p.bytes).filter (· ≠ [])

/-- What decides which paths are the same. -/
structure Components where
  absolute : Bool
  names : List Bytes
  deriving DecidableEq, Repr

def components (p : Path) : Components :=
  let named := p.names.filter (· ≠ dot)
  let startsWithDot := (stretches p.bytes).head? = some dot
  ⟨p.isAbsolute, if startsWithDot then dot :: named else named⟩

def same (p q : Path) : Bool := p.components = q.components

/-- The path as a text that can always be written. -/
def shown (p : Path) : String := Utf8.shown p.bytes

def quoted (p : Path) : String := Quoted.bytes p.bytes

end Path

end DeferredOpen
