/-!
# Texts as bytes

Paths, arguments and variables come from the operating system as bytes, which are UTF-8 only by
habit. `Utf8.pieces` cuts any bytes into characters and broken runs, `Utf8.decode?` accepts
exactly those with no broken run, and `Utf8.shown` writes every broken run as U+FFFD. A broken
run is a maximal part: the longest start of a character that the bytes hold, or one byte.
-/

namespace DeferredOpen

/-- What the operating system knows a text as. -/
abbrev Bytes := List UInt8

namespace Utf8

def encode (s : String) : Bytes := s.toList.flatMap String.utf8EncodeChar

/-- A character, or a run of bytes that is the start of none. -/
inductive Piece where
  | char (c : Char)
  | broken (bytes : Bytes)
  deriving DecidableEq, Repr

/-- What a first byte announces: the bits it gives, the number of bytes that follow, and the
range of the first of those. Later ones are always in 80 to BF. -/
structure Lead where
  bits : Nat
  count : Nat
  low : UInt8 := 0x80
  high : UInt8 := 0xBF

/-- The first bytes of characters of two bytes and more. The ranges leave out spellings longer
than needed, surrogates, and all above U+10FFFF. -/
def Lead.of? (b : UInt8) : Option Lead :=
  if b < 0xC2 then none
  else if b ≤ 0xDF then some { bits := b.toNat - 0xC0, count := 1 }
  else if b = 0xE0 then some { bits := 0, count := 2, low := 0xA0 }
  else if b = 0xED then some { bits := 0xD, count := 2, high := 0x9F }
  else if b ≤ 0xEF then some { bits := b.toNat - 0xE0, count := 2 }
  else if b = 0xF0 then some { bits := 0, count := 3, low := 0x90 }
  else if b ≤ 0xF3 then some { bits := b.toNat - 0xF0, count := 3 }
  else if b = 0xF4 then some { bits := 4, count := 3, high := 0x8F }
  else none

/-- Up to `count` following bytes, the first of them in `low` to `high`, and what is left. -/
def following (low high : UInt8) : Nat → Bytes → Bytes × Bytes
  | count + 1, b :: rest =>
    if low ≤ b ∧ b ≤ high then
      let (taken, left) := following 0x80 0xBF count rest
      (b :: taken, left)
    else ([], b :: rest)
  | _, rest => ([], rest)

theorem following_append (low high : UInt8) (count : Nat) (rest : Bytes) :
    (following low high count rest).1 ++ (following low high count rest).2 = rest := by
  induction count generalizing low high rest with
  | zero => simp [following]
  | succ n ih =>
    cases rest with
    | nil => simp [following]
    | cons b r =>
      simp only [following]
      split
      · simpa using ih 0x80 0xBF r
      · rfl

theorem length_following_le (low high : UInt8) (count : Nat) (rest : Bytes) :
    (following low high count rest).2.length ≤ rest.length := by
  have h := congrArg List.length (following_append low high count rest)
  simp only [List.length_append] at h
  omega

/-- Each following byte adds its low six bits. -/
def code (bits : Nat) (tail : Bytes) : Nat :=
  tail.foldl (fun n b => n * 64 + (b.toNat - 0x80)) bits

/-- The first piece of bytes that start with `b`, and what is left of the rest. -/
def first (b : UInt8) (rest : Bytes) : Piece × Bytes :=
  if b < 0x80 then (.char (Char.ofNat b.toNat), rest)
  else match Lead.of? b with
    | none => (.broken [b], rest)
    | some lead =>
      let (tail, left) := following lead.low lead.high lead.count rest
      (if tail.length = lead.count then .char (Char.ofNat (code lead.bits tail))
        else .broken (b :: tail), left)

theorem length_first_le (b : UInt8) (rest : Bytes) : (first b rest).2.length ≤ rest.length := by
  unfold first
  split
  · exact Nat.le_refl _
  · split
    · exact Nat.le_refl _
    · exact length_following_le ..

def pieces : Bytes → List Piece
  | [] => []
  | b :: rest => (first b rest).1 :: pieces (first b rest).2
termination_by bytes => bytes.length
decreasing_by
  have := length_first_le b rest
  simp only [List.length_cons]
  omega

def characters? : List Piece → Option (List Char)
  | [] => some []
  | .char c :: rest => (characters? rest).map (c :: ·)
  | .broken _ :: _ => none

/-- The text that the bytes spell, if no part of them is broken. -/
def decode? (bytes : Bytes) : Option String := (characters? (pieces bytes)).map String.ofList

/-- A broken run shows as U+FFFD. -/
def Piece.shown : Piece → Char
  | .char c => c
  | .broken _ => Char.ofNat 0xFFFD

def shown (bytes : Bytes) : String := String.ofList ((pieces bytes).map Piece.shown)

end Utf8

end DeferredOpen
