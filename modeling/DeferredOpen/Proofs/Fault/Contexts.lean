import DeferredOpen.Fault.Basic
import Mathlib.Data.List.Induction

/-!
# Contexts put one before the other

A fault changes its form when it is given a context: the number of the system goes, and its kind and
text stay. Whatever a fault was made from and however many contexts are put before it, it shows all
of them before its own text, keeps its kind and call stack, and cannot be told from a fault that was
given all of them at once.
-/

namespace DeferredOpen.Fault

inductive Source where
  /-- A text, put together for the occasion. -/
  | composed (text : String)
  /-- A text that is part of the program. -/
  | fixed (text : String)
  /-- Failed input or output, with a text. -/
  | told (k : Kind) (text : String)
  /-- Failed input or output, with its kind alone. -/
  | bare (k : Kind)
  /-- A number of the system, as it is. -/
  | numbered (e : SystemFault)
  /-- A number from a system call, of which only those with a meaning are passed on. -/
  | called (e : SystemFault)
  deriving DecidableEq, Repr

namespace Source

/-- The fault that is made from a source, under some calls. -/
def fault (s : Source) (stack : CallStack) : Fault where
  cause :=
    match s with
    | .composed text | .fixed text => .message text
    | .told k text => .custom k text
    | .bare k => .kind k
    | .numbered e => .system e
    | .called e => .system e.normalize
  stack := stack

def IsText : Source → Prop
  | .composed _ | .fixed _ => True
  | _ => False

theorem kind?_fault_eq_none_iff (s : Source) (stack : CallStack) :
    (s.fault stack).kind? = none ↔ s.IsText := by
  cases s <;> simp [fault, kind?, Cause.kind?, IsText]

end Source

/-- A fault with contexts put before it, each one before those that it has already. -/
def contexts (f : Fault) (doings : List String) : Fault := doings.foldl context f

@[simp] theorem contexts_nil (f : Fault) : f.contexts [] = f := rfl

@[simp] theorem contexts_concat (f : Fault) (doings : List String) (doing : String) :
    f.contexts (doings ++ [doing]) = (f.contexts doings).context doing := by
  rw [contexts, List.foldl_append]
  rfl

/-- Two contexts are one that joins them. -/
theorem context_context (f : Fault) (a b : String) :
    (f.context a).context b = f.context (b ++ ": " ++ a) := by
  have hsaid : b ++ ": " ++ (a ++ ": " ++ f.text) = b ++ ": " ++ a ++ ": " ++ f.text := by
    simp only [String.append_assoc]
  rw [context, text_context, kind?_context, hsaid]
  rfl

theorem text_contexts (f : Fault) (doings : List String) :
    (f.contexts doings).text = ": ".intercalate (doings.reverse ++ [f.text]) := by
  induction doings using List.reverseRecOn with
  | nil => simp
  | append_singleton doings doing ih =>
    rw [contexts_concat, text_context, ih, List.reverse_concat, List.cons_append,
      String.intercalate_cons_of_ne_nil (by simp)]

/-- What one context leaves alone any contexts do. -/
theorem contexts_keep (view : Fault → β) (hview : ∀ f doing, view (f.context doing) = view f)
    (f : Fault) (doings : List String) : view (f.contexts doings) = view f := by
  induction doings generalizing f with
  | nil => rfl
  | cons doing doings ih => exact (ih (f.context doing)).trans (hview f doing)

/-- Any contexts are one that joins them. -/
theorem contexts_eq_context (f : Fault) {doings : List String} (h : doings ≠ []) :
    f.contexts doings = f.context (": ".intercalate doings.reverse) := by
  induction doings using List.reverseRecOn with
  | nil => exact absurd rfl h
  | append_singleton doings doing ih =>
    rw [contexts_concat, List.reverse_concat]
    by_cases hfirst : doings = []
    · simp [hfirst]
    · have hothers : doings.reverse ≠ [] := by simpa using hfirst
      rw [ih hfirst, context_context, String.intercalate_cons_of_ne_nil hothers]

/-- Whatever a fault was made from, contexts that are put before it show before its text, the last
one first. They change neither its kind, which only a text has none of, nor its call stack. To put
two of them, or all, is to put one that joins them. -/
theorem contexts_stand_before_text (s : Source) (stack : CallStack) (doings : List String) :
    let f := s.fault stack
    let told := f.contexts doings
    told.text = ": ".intercalate (doings.reverse ++ [f.text]) ∧
    told.kind? = f.kind? ∧ (told.kind? = none ↔ s.IsText) ∧ told.stack = stack ∧
    (∀ a b, (told.context a).context b = told.context (b ++ ": " ++ a)) ∧
    (doings ≠ [] → told = f.context (": ".intercalate doings.reverse)) := by
  intro f told
  have hkind : told.kind? = f.kind? := contexts_keep kind? kind?_context f doings
  have hstack : told.stack = stack := contexts_keep Fault.stack stack_context f doings
  have hnone : told.kind? = none ↔ s.IsText := by
    rw [hkind]
    exact s.kind?_fault_eq_none_iff stack
  exact ⟨text_contexts f doings, hkind, hnone, hstack, context_context told, contexts_eq_context f⟩

end DeferredOpen.Fault
