/-!
# Splitting a delay text

A delay is a number and a suffix, and the number is meant to end with the last digit of the text.
The place is found by counting the characters behind that digit and taking as many *bytes* off
the end. Both counts agree while the suffix is ASCII. Behind a wider suffix the cut comes later,
and where it falls inside a character there is no split at all.
-/

namespace DeferredOpen.Delay

def width : List Char → Nat
  | [] => 0
  | c :: cs => c.utf8Size + width cs

@[simp] theorem width_nil : width [] = 0 := rfl
@[simp] theorem width_cons (c : Char) (cs : List Char) : width (c :: cs) = c.utf8Size + width cs :=
  rfl

theorem width_append (as bs : List Char) : width (as ++ bs) = width as + width bs := by
  induction as with
  | nil => simp
  | cons a as ih => simp [ih, Nat.add_assoc]

/-- The characters behind the last digit; without a digit, all of them. -/
def afterLastDigit (cs : List Char) : List Char :=
  (cs.reverse.takeWhile fun c => !c.isDigit).reverse

/-- The byte at which a delay text is cut: as many from the end as there are characters behind the
last digit. A text without a digit is all suffix. -/
def cut (cs : List Char) : Nat :=
  if cs.any Char.isDigit then width cs - (afterLastDigit cs).length else 0

/-- Cuts a text behind its first `n` bytes, if a character ends there. -/
def splitAtByte : Nat → List Char → Option (List Char × List Char)
  | 0, cs => some ([], cs)
  | _ + 1, [] => none
  | n + 1, c :: cs =>
    if c.utf8Size ≤ n + 1 then
      (splitAtByte (n + 1 - c.utf8Size) cs).map fun (as, bs) => (c :: as, bs)
    else none

theorem append_of_splitAtByte {n : Nat} {cs as bs : List Char}
    (h : splitAtByte n cs = some (as, bs)) : as ++ bs = cs ∧ width as = n := by
  fun_induction splitAtByte n cs generalizing as with
  | case1 cs =>
    obtain ⟨rfl, rfl⟩ := Prod.mk.inj (Option.some.inj h)
    exact ⟨rfl, rfl⟩
  | case2 => cases h
  | case3 n c cs hle ih =>
    obtain ⟨⟨as', bs'⟩, hs, he⟩ := Option.map_eq_some_iff.mp h
    obtain ⟨rfl, rfl⟩ := Prod.mk.inj he
    obtain ⟨happ, hw⟩ := ih hs
    exact ⟨by rw [List.cons_append, happ], by rw [width_cons, hw]; omega⟩
  | case4 => cases h

theorem splitAtByte_width_append (as bs : List Char) :
    splitAtByte (width as) (as ++ bs) = some (as, bs) := by
  induction as with
  | nil => cases bs <;> rfl
  | cons a as ih =>
    have hpos := a.utf8Size_pos
    obtain ⟨n, hn⟩ : ∃ n, width (a :: as) = n + 1 := ⟨width (a :: as) - 1, by simp; omega⟩
    have hle : a.utf8Size ≤ n + 1 := by rw [← hn]; simp
    have hsub : n + 1 - a.utf8Size = width as := by rw [← hn]; simp
    rw [hn, List.cons_append, splitAtByte, if_pos hle, hsub, ih]
    rfl

/-- The number and the suffix of a delay text, unless the cut falls inside a character. -/
def split (cs : List Char) : Option (List Char × List Char) := splitAtByte (cut cs) cs

end DeferredOpen.Delay
