/-!
# Descriptors

An open file is known by a number. The operating system picks the number, and never one that is
in use; numbers given out are not given back.
-/

namespace DeferredOpen

structure Descriptor where
  number : Nat
  deriving DecidableEq, Repr, Inhabited

structure Numbering where
  pick : List Descriptor → Descriptor
  pick_not_mem : ∀ held, pick held ∉ held

namespace Numbering

/-- One more than the largest number in use. -/
def above (held : List Descriptor) : Nat := held.foldr (fun d n => max (d.number + 1) n) 0

theorem lt_above {held : List Descriptor} {d : Descriptor} (h : d ∈ held) :
    d.number < above held := by
  induction held with
  | nil => simp at h
  | cons e rest ih =>
    simp only [above, List.foldr_cons] at ih ⊢
    rcases List.mem_cons.mp h with rfl | h
    · omega
    · have := ih h
      omega

def inOrder : Numbering where
  pick held := ⟨above held⟩
  pick_not_mem held h := by
    have := lt_above h
    simp at this

instance : Inhabited Numbering := ⟨inOrder⟩

end Numbering

end DeferredOpen
