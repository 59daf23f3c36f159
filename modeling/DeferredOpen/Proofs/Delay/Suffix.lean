import DeferredOpen.Delay.Suffix
import DeferredOpen.Proofs.Number.Spelling

/-!
# The suffixes that there are

`Suffix` lists what can follow the number of a delay: nothing, a degree, a unit other than the
minute, or a degree and a unit. The reader knows a text as a suffix exactly when it is the letters
of one of these, and no two of them share their letters.
-/

namespace DeferredOpen.Delay

inductive TimeUnit where
  | second
  | minute
  | hour
  | day
  deriving DecidableEq, Repr

/-- A part of a unit, as a power of ten. -/
inductive Degree where
  | milli
  | micro
  | nano
  deriving DecidableEq, Repr

def TimeUnit.letter : TimeUnit → Char
  | .second => 's'
  | .minute => 'm'
  | .hour => 'h'
  | .day => 'd'

def TimeUnit.seconds : TimeUnit → Nat
  | .second => 1
  | .minute => 60
  | .hour => 3600
  | .day => 86400

def Degree.letter : Degree → Char
  | .milli => 'm'
  | .micro => 'u'
  | .nano => 'n'

def Degree.power : Degree → Int
  | .milli => -3
  | .micro => -6
  | .nano => -9

def TimeUnit.factor (u : TimeUnit) : Binary64 := .ofDecimal false u.seconds 0

/-- The number nearest to the power of ten of a degree. -/
def Degree.factor (d : Degree) : Binary64 := .ofDecimal false 1 d.power

/-- What can follow the number of a delay. A lone `m` is the degree, so the minute only stands
behind a degree. -/
inductive Suffix where
  | bare
  | degree (d : Degree)
  | unit (u : TimeUnit) (h : u ≠ .minute)
  | scaled (d : Degree) (u : TimeUnit)
  deriving DecidableEq

namespace Suffix

def letters : Suffix → List Char
  | .bare => []
  | .degree d => [d.letter]
  | .unit u _ => [u.letter]
  | .scaled d u => [d.letter, u.letter]

def multiplier : Suffix → Binary64
  | .bare => .ofDecimal false 1 0
  | .degree d => d.factor
  | .unit u _ => u.factor
  | .scaled d u => d.factor * u.factor

end Suffix

theorem unit?_eq_some_iff (c : Char) (x : Binary64) :
    unit? c = some x ↔ ∃ u : TimeUnit, u.letter = c ∧ u.factor = x := by
  constructor
  · intro h
    unfold unit? at h
    split at h
    · exact ⟨.second, rfl, Option.some.inj h⟩
    · exact ⟨.minute, rfl, Option.some.inj h⟩
    · exact ⟨.hour, rfl, Option.some.inj h⟩
    · exact ⟨.day, rfl, Option.some.inj h⟩
    · cases h
  · rintro ⟨u, rfl, rfl⟩
    cases u <;> rfl

theorem degree?_eq_some_iff (c : Char) (x : Binary64) :
    degree? c = some x ↔ ∃ d : Degree, d.letter = c ∧ d.factor = x := by
  constructor
  · intro h
    unfold degree? at h
    split at h
    · exact ⟨.milli, rfl, Option.some.inj h⟩
    · exact ⟨.micro, rfl, Option.some.inj h⟩
    · exact ⟨.nano, rfl, Option.some.inj h⟩
    · cases h
  · rintro ⟨d, rfl, rfl⟩
    cases d <;> rfl

theorem degree?_letter {u : TimeUnit} (h : u ≠ .minute) : degree? u.letter = none := by
  cases u with
  | minute => exact absurd rfl h
  | second | hour | day => rfl

/-- A text has a multiplier exactly when it is the letters of a suffix. -/
theorem multiplier?_eq_some_iff (cs : List Char) (x : Binary64) :
    multiplier? cs = some x ↔ ∃ s : Suffix, s.letters = cs ∧ s.multiplier = x := by
  constructor
  · intro h
    unfold multiplier? at h
    split at h
    · refine ⟨.bare, rfl, ?_⟩
      rw [Suffix.multiplier]
      exact Option.some.inj h
    · next a =>
      obtain hd | ⟨hd, hu⟩ := Option.or_eq_some_iff.mp h
      · obtain ⟨d, rfl, rfl⟩ := (degree?_eq_some_iff _ _).mp hd
        exact ⟨.degree d, rfl, rfl⟩
      · obtain ⟨u, rfl, rfl⟩ := (unit?_eq_some_iff _ _).mp hu
        have hm : u ≠ .minute := by
          rintro rfl
          have hmilli := (degree?_eq_some_iff 'm' _).mpr ⟨.milli, rfl, rfl⟩
          exact Option.some_ne_none _ (hmilli.symm.trans hd)
        exact ⟨.unit u hm, rfl, rfl⟩
    · next a b =>
      obtain ⟨y, hd, h⟩ := Option.bind_eq_some_iff.mp h
      obtain ⟨z, hu, h⟩ := Option.bind_eq_some_iff.mp h
      obtain ⟨d, rfl, rfl⟩ := (degree?_eq_some_iff _ _).mp hd
      obtain ⟨u, rfl, rfl⟩ := (unit?_eq_some_iff _ _).mp hu
      exact ⟨.scaled d u, rfl, Option.some.inj h⟩
    · cases h
  · rintro ⟨s, rfl, rfl⟩
    cases s with
    | bare => rw [Suffix.letters, Suffix.multiplier, multiplier?]
    | degree d =>
      have hd := (degree?_eq_some_iff d.letter d.factor).mpr ⟨d, rfl, rfl⟩
      rw [Suffix.letters, Suffix.multiplier, multiplier?, hd, Option.some_or]
    | unit u h =>
      have hu := (unit?_eq_some_iff u.letter u.factor).mpr ⟨u, rfl, rfl⟩
      rw [Suffix.letters, Suffix.multiplier, multiplier?, degree?_letter h, hu, Option.none_or]
    | scaled d u =>
      have hd := (degree?_eq_some_iff d.letter d.factor).mpr ⟨d, rfl, rfl⟩
      have hu := (unit?_eq_some_iff u.letter u.factor).mpr ⟨u, rfl, rfl⟩
      rw [Suffix.letters, Suffix.multiplier, multiplier?, hd, hu]
      simp only [Option.bind_eq_bind, Option.bind_some]

namespace Suffix

/-- Letters that can stand in a suffix are neither digits nor wider than a byte. -/
theorem mem_letters {s : Suffix} {c : Char} (h : c ∈ s.letters) :
    c ∈ ['s', 'h', 'd', 'm', 'u', 'n'] := by
  have hunit : ∀ u : TimeUnit, u.letter ∈ ['s', 'h', 'd', 'm', 'u', 'n'] := by
    intro u
    cases u <;> decide
  have hdegree : ∀ d : Degree, d.letter ∈ ['s', 'h', 'd', 'm', 'u', 'n'] := by
    intro d
    cases d <;> decide
  cases s with
  | bare => cases h
  | degree d => exact List.mem_singleton.mp h ▸ hdegree d
  | unit u _ => exact List.mem_singleton.mp h ▸ hunit u
  | scaled d u =>
    obtain rfl | h := List.mem_cons.mp h
    · exact hdegree d
    · exact List.mem_singleton.mp h ▸ hunit u

theorem isDigit_of_mem_letters {s : Suffix} {c : Char} (h : c ∈ s.letters) :
    c.isDigit = false := by
  have hc := mem_letters h
  simp only [List.mem_cons, List.not_mem_nil, or_false] at hc
  rcases hc with rfl | rfl | rfl | rfl | rfl | rfl <;> rfl

theorem utf8Size_of_mem_letters {s : Suffix} {c : Char} (h : c ∈ s.letters) :
    c.utf8Size = 1 := by
  have hc := mem_letters h
  simp only [List.mem_cons, List.not_mem_nil, or_false] at hc
  rcases hc with rfl | rfl | rfl | rfl | rfl | rfl <;> rfl

/-- The letters of a suffix leave no choice: only `m` is in both tables, and alone it is the
degree. -/
theorem letters_injective {s t : Suffix} (h : s.letters = t.letters) : s = t := by
  have hu : ∀ u v : TimeUnit, u.letter = v.letter → u = v := by
    intro u v
    cases u <;> cases v <;> decide
  have hd : ∀ d e : Degree, d.letter = e.letter → d = e := by
    intro d e
    cases d <;> cases e <;> decide
  have hdu : ∀ (d : Degree) (u : TimeUnit), d.letter = u.letter → u = .minute := by
    intro d u
    cases d <;> cases u <;> decide
  cases s <;> cases t <;> simp only [letters, List.cons.injEq, reduceCtorEq, and_true] at h
  all_goals grind

end Suffix

end DeferredOpen.Delay
