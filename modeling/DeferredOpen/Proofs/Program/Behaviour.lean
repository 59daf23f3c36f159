import DeferredOpen.Program
import DeferredOpen.Proofs.Number.Spelling
import DeferredOpen.Proofs.Process.Steps

/-!
# What a run shows

Two runs are compared by what they show: the exit code, the error stream and the lines of output.
The number of a descriptor is up to the operating system, so a line that tells one counts as a
label: it stands for the place of the file among those that the run has opened.
-/

namespace DeferredOpen

inductive Line where
  | text (bytes : Bytes)
  /-- What tells of the file opened so many files after the first one. -/
  | descriptor (place : Nat)
  deriving DecidableEq, Repr

namespace Line

/-- The line of a text in a run that has opened files with these numbers. -/
def ofBytes (opened : List Nat) (bytes : Bytes) : Line :=
  match opened.findIdx? fun n => bytes = Utf8.encode ("fd: " ++ toString n) with
  | some place => .descriptor place
  | none => .text bytes

def feed : UInt8 := 0x0A

/-- The lines of an output; what stands behind the last end of a line is one, too. -/
def all (opened : List Nat) (output : Bytes) : List Line :=
  (output.splitOn feed).map (ofBytes opened)

end Line

structure Behaviour where
  code : Option Nat
  complaint : Complaint
  lines : List Line
  deriving DecidableEq, Repr

/-- What a run shows that has ended in a process. -/
def Ended.behaviour (e : Ended) : Behaviour :=
  ⟨e.code, e.complaint, Line.all e.process.openedInOrder e.process.out.accepted⟩

def codeOf : Except Stop α → Option Nat
  | .ok _ => some 0
  | .error (.failed _) => some 1
  | .error .panicked => some 101
  | .error .endless => none

def complaintOf : Except Stop α → Complaint
  | .error (.failed fault) => .fault (Program.complaintLine fault)
  | .error .panicked => .panic
  | _ => .none

theorem Process.openedInOrder_eq (p : Process) :
    p.openedInOrder = p.openings.filterMap fun o => o.2.toOption.map Descriptor.number := by
  rw [openings, filterMap_deeds fun _ => rfl, List.filterMap_filterMap, openedInOrder]
  congr 1
  funext e
  cases e with
  | opened path result => cases result <;> rfl
  | _ => rfl

theorem Program.behaviour_finish (result : Except Stop α) (p : Process) :
    (Program.finish (result, p)).behaviour =
      ⟨codeOf result, complaintOf result, Line.all p.openedInOrder p.out.accepted⟩ := by
  cases result with
  | ok x => rfl
  | error stop =>
    cases stop with
    | failed fault =>
      have hopened : (p.after (.logged (.failed fault.stack))).openedInOrder = p.openedInOrder := by
        simp [Process.openedInOrder]
      simp only [finish, Ended.behaviour, hopened]
      rfl
    | panicked => rfl
    | endless => rfl

theorem Program.behaviour_finish_map (f : α → β) (result : Except Stop α) (p : Process) :
    (Program.finish (result.map f, p)).behaviour = (Program.finish (result, p)).behaviour := by
  rw [behaviour_finish, behaviour_finish]
  cases result with
  | ok x => rfl
  | error stop => cases stop <;> rfl

namespace Line

theorem encode_append (s t : String) : Utf8.encode (s ++ t) = Utf8.encode s ++ Utf8.encode t := by
  simp [Utf8.encode]

theorem encode_descriptor (n : Nat) :
    Utf8.encode ("fd: " ++ toString n) = 0x66 :: 0x64 :: 0x3A :: 0x20 :: Utf8.encode (toString n) := by
  rw [encode_append]
  rfl

/-- There is no end of a line in a number. -/
theorem feed_not_mem_number (n : Nat) : feed ∉ Utf8.encode (toString n) := by
  intro h
  obtain ⟨c, hc, hfeed⟩ := List.mem_flatMap.mp h
  have hdigit : c.isDigit = true := by
    refine Nat.isDigit_of_mem_toDigits (b := 10) (n := n) (by decide) (by decide) ?_
    simpa [toString, Nat.repr] using hc
  rw [String.utf8EncodeChar_eq_singleton (Literal.utf8Size_of_isDigit hdigit)] at hfeed
  have hval : feed = c.val.toUInt8 := List.mem_singleton.mp hfeed
  have hnat := congrArg UInt8.toNat hval
  simp only [Char.isDigit, Bool.and_eq_true, decide_eq_true_eq, ge_iff_le,
    UInt32.le_iff_toNat_le] at hdigit
  change 48 ≤ c.val.toNat ∧ c.val.toNat ≤ 57 at hdigit
  rw [UInt32.toNat_toUInt8, Nat.mod_eq_of_lt (by omega)] at hnat
  change 10 = c.val.toNat at hnat
  omega

theorem ofBytes_of_head_ne {opened : List Nat} {bytes : Bytes} (h : bytes.head? ≠ some 0x66) :
    ofBytes opened bytes = .text bytes := by
  have hnone : opened.findIdx? (fun n => bytes = Utf8.encode ("fd: " ++ toString n)) = none := by
    rw [List.findIdx?_eq_none_iff]
    intro n _
    rw [decide_eq_false_iff_not]
    rintro rfl
    rw [encode_descriptor] at h
    exact h rfl
  rw [ofBytes, hnone]

theorem all_nil (opened : List Nat) : all opened [] = [.text []] := by
  rw [all, List.splitOn_nil, List.map_singleton, ofBytes_of_head_ne (by decide)]

theorem ofBytes_descriptor (n : Nat) :
    ofBytes [n] (Utf8.encode ("fd: " ++ toString n)) = .descriptor 0 := by
  simp [ofBytes]

end Line

end DeferredOpen
