/-!
# Tables of named things

A table holds one thing under a name. Putting another one under the name replaces it.
-/

namespace DeferredOpen

structure Table (α : Type) where
  rows : List (String × α) := []

namespace Table

variable {α : Type}

def get? (t : Table α) (name : String) : Option α := t.rows.lookup name

def erase (t : Table α) (name : String) : Table α := ⟨t.rows.filter fun row => row.1 ≠ name⟩

def insert (t : Table α) (name : String) (thing : α) : Table α :=
  ⟨(name, thing) :: (t.erase name).rows⟩

def contains (t : Table α) (name : String) : Bool := (t.get? name).isSome

@[simp] theorem get?_insert_self (t : Table α) (name : String) (thing : α) :
    (t.insert name thing).get? name = some thing := by
  simp [get?, insert]

theorem get?_erase_ne (t : Table α) {name other : String} (h : other ≠ name) :
    (t.erase name).get? other = t.get? other := by
  obtain ⟨rows⟩ := t
  simp only [get?, erase]
  induction rows with
  | nil => rfl
  | cons row rows ih =>
    obtain ⟨key, thing⟩ := row
    by_cases hk : key = name
    · subst hk
      simpa [List.lookup_cons, beq_eq_false_iff_ne.mpr h] using ih
    · rw [List.filter_cons_of_pos (by simpa using hk)]
      simp only [List.lookup_cons]
      split
      · rfl
      · exact ih

@[simp] theorem get?_erase_self (t : Table α) (name : String) :
    (t.erase name).get? name = none := by
  obtain ⟨rows⟩ := t
  simp only [get?, erase]
  induction rows with
  | nil => rfl
  | cons row rows ih =>
    obtain ⟨key, thing⟩ := row
    by_cases hk : key = name
    · subst hk
      simpa using ih
    · rw [List.filter_cons_of_pos (by simpa using hk)]
      simpa [List.lookup_cons, beq_eq_false_iff_ne.mpr (Ne.symm hk)] using ih

theorem get?_insert_ne (t : Table α) {name other : String} (thing : α) (h : other ≠ name) :
    (t.insert name thing).get? other = t.get? other := by
  have hb : (other == name) = false := beq_eq_false_iff_ne.mpr h
  simpa [get?, insert, List.lookup_cons, hb] using get?_erase_ne t h

end Table

end DeferredOpen
