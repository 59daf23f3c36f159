import DeferredOpen.Fault.SystemFault

/-!
# Faults

A fault has a cause and the call stack of the place where it arose. `Fault.context` puts what was
being done in front of the text, and keeps the kind and the call stack.
-/

namespace DeferredOpen

namespace Fault

inductive Cause where
  /-- The operating system reported a number. -/
  | system (e : SystemFault)
  /-- Input or output failed in a known way, without more to say. -/
  | kind (k : Kind)
  /-- Input or output failed in a known way, with a text. -/
  | custom (k : Kind) (text : String)
  /-- A text alone. -/
  | message (text : String)
  deriving DecidableEq, Repr

/-- The calls that were under way when a fault arose, the innermost first. -/
abbrev CallStack := List String

end Fault

structure Fault where
  cause : Fault.Cause
  stack : Fault.CallStack := []
  deriving DecidableEq, Repr

namespace Fault

def ofText (text : String) : Fault := { cause := .message text }

def ofSystem (e : SystemFault) : Fault := { cause := .system e }

def ofKind (k : Kind) (text : String) : Fault := { cause := .custom k text }

def Cause.text : Cause → String
  | .system e => e.message
  | .kind k => k.description
  | .custom _ text => text
  | .message text => text

def Cause.kind? : Cause → Option Kind
  | .system e => some e.kind
  | .kind k => some k
  | .custom k _ => some k
  | .message _ => none

def text (f : Fault) : String := f.cause.text

/-- The kind of a fault, where it comes from input or output. -/
def kind? (f : Fault) : Option Kind := f.cause.kind?

/-- Says what was being done when a fault arose. -/
def context (f : Fault) (doing : String) : Fault :=
  let said := doing ++ ": " ++ f.text
  { f with cause := match f.kind? with
      | some k => .custom k said
      | none => .message said }

@[simp] theorem text_context (f : Fault) (doing : String) :
    (f.context doing).text = doing ++ ": " ++ f.text := by
  unfold context text
  cases f.kind? <;> rfl

@[simp] theorem kind?_context (f : Fault) (doing : String) :
    (f.context doing).kind? = f.kind? := by
  simp only [context]
  cases h : f.kind? <;> rfl

@[simp] theorem stack_context (f : Fault) (doing : String) : (f.context doing).stack = f.stack :=
  rfl

end Fault

end DeferredOpen
