import DeferredOpen.Text.Utf8

/-!
# Which bytes spell a text

Bytes that spell a text are the bytes of that text, and of no other one. The proof goes by
characters. A first byte and those that it announces spell one character, because the ranges for
the first following byte leave out just what would be longer than needed or no character; and
every character beyond ASCII is spelled in this way.
-/

namespace DeferredOpen.Utf8

/-- So many following bytes, the first of them in `low` to `high`. -/
def IsTail (low high : UInt8) : Nat → Bytes → Prop
  | 0, tail => tail = []
  | _ + 1, [] => False
  | count + 1, b :: tail => low ≤ b ∧ b ≤ high ∧ IsTail 0x80 0xBF count tail

theorem following_of_isTail {low high : UInt8} {count : Nat} {tail : Bytes}
    (h : IsTail low high count tail) (rest : Bytes) :
    following low high count (tail ++ rest) = (tail, rest) ∧ tail.length = count := by
  induction count generalizing low high tail with
  | zero =>
    obtain rfl : tail = [] := h
    exact ⟨by cases rest <;> rfl, rfl⟩
  | succ count ih =>
    cases tail with
    | nil => exact h.elim
    | cons b tail =>
      obtain ⟨hlow, hhigh, htail⟩ := h
      obtain ⟨hfollowing, hlength⟩ := ih htail
      constructor
      · rw [List.cons_append, following, if_pos ⟨hlow, hhigh⟩, hfollowing]
      · rw [List.length_cons, hlength]

theorem isTail_of_following {low high : UInt8} {count : Nat} {bytes : Bytes}
    (h : (following low high count bytes).1.length = count) :
    IsTail low high count (following low high count bytes).1 := by
  induction count generalizing low high bytes with
  | zero => exact List.length_eq_zero_iff.mp h
  | succ count ih =>
    cases bytes with
    | nil => cases h
    | cons b bytes =>
      unfold following at h ⊢
      split at h
      · rename_i hrange
        rw [if_pos hrange]
        exact ⟨hrange.1, hrange.2, ih (Nat.succ.inj h)⟩
      · cases h

/-- The following byte with these six bits. -/
def trailing (x : Nat) : UInt8 := .ofNat (0x80 + x)

theorem toNat_trailing {x : Nat} (h : x < 64) : (trailing x).toNat = 0x80 + x :=
  UInt8.toNat_ofNat_of_lt' (by change _ < 256; omega)

theorem code_trailing {x : Nat} (hx : x < 64) (bits : Nat) (tail : Bytes) :
    code bits (trailing x :: tail) = code (bits * 64 + x) tail := by
  have hbits : (trailing x).toNat - 0x80 = x := by
    rw [toNat_trailing hx, Nat.add_sub_cancel_left]
  rw [code, List.foldl_cons, hbits, code]

/-- What follows is told by the six bits of each byte. -/
theorem isTail_succ_iff {low high : UInt8} {count : Nat} {tail : Bytes}
    (hlow : 0x80 ≤ low.toNat) (hhigh : high.toNat ≤ 0xBF) :
    IsTail low high (count + 1) tail ↔
      ∃ x more, tail = trailing x :: more ∧ x < 64 ∧ low.toNat ≤ 0x80 + x ∧
        0x80 + x ≤ high.toNat ∧ IsTail 0x80 0xBF count more := by
  constructor
  · intro h
    cases tail with
    | nil => exact h.elim
    | cons b more =>
      obtain ⟨hb, hb', hmore⟩ := h
      rw [UInt8.le_iff_toNat_le] at hb hb'
      have hsplit : 0x80 + (b.toNat - 0x80) = b.toNat := by omega
      refine ⟨b.toNat - 0x80, more, ?_, by omega, by omega, by omega, hmore⟩
      rw [trailing, hsplit, UInt8.ofNat_toNat]
  · rintro ⟨x, more, rfl, hx, hxlow, hxhigh, hmore⟩
    have hbyte := toNat_trailing hx
    refine ⟨?_, ?_, hmore⟩
    · rwa [UInt8.le_iff_toNat_le, hbyte]
    · rwa [UInt8.le_iff_toNat_le, hbyte]

theorem isTail_plain_iff {count : Nat} {tail : Bytes} :
    IsTail 0x80 0xBF (count + 1) tail ↔
      ∃ x more, tail = trailing x :: more ∧ x < 64 ∧ IsTail 0x80 0xBF count more := by
  rw [isTail_succ_iff (by decide) (by decide)]
  constructor
  · rintro ⟨x, more, htail, hx, -, -, hmore⟩
    exact ⟨x, more, htail, hx, hmore⟩
  · rintro ⟨x, more, htail, hx, hmore⟩
    exact ⟨x, more, htail, hx, Nat.le_add_right _ _, by change _ ≤ 0xBF; omega, hmore⟩

namespace Lead

variable {a : Nat} {b : UInt8} {tail : Bytes}

def two (a : Nat) : Lead := { bits := a, count := 1 }

def three (a : Nat) : Lead where
  bits := a
  count := 2
  low := if a = 0 then 0xA0 else 0x80
  high := if a = 0xD then 0x9F else 0xBF

def four (a : Nat) : Lead where
  bits := a
  count := 3
  low := if a = 0 then 0x90 else 0x80
  high := if a = 4 then 0x8F else 0xBF

theorem of?_two (hb : b.toNat = 0xC0 + a) (ha : 2 ≤ a) (ha' : a < 0x20) :
    of? b = some (two a) := by
  unfold of?
  simp only [UInt8.lt_iff_toNat_lt, UInt8.le_iff_toNat_le, hb, UInt8.reduceToNat]
  rw [if_neg (by omega), if_pos (by omega), Nat.add_sub_cancel_left, two]

theorem of?_three (hb : b.toNat = 0xE0 + a) (ha : a < 0x10) : of? b = some (three a) := by
  unfold of? three
  simp only [UInt8.lt_iff_toNat_lt, UInt8.le_iff_toNat_le, ← UInt8.toNat_inj, hb, UInt8.reduceToNat]
  grind

theorem of?_four (hb : b.toNat = 0xF0 + a) (ha : a < 5) : of? b = some (four a) := by
  unfold of? four
  simp only [UInt8.lt_iff_toNat_lt, UInt8.le_iff_toNat_le, ← UInt8.toNat_inj, hb, UInt8.reduceToNat]
  grind

/-- There are no other first bytes. -/
theorem exists_of_isSome (h : (of? b).isSome = true) :
    ∃ a, (b.toNat = 0xC0 + a ∧ 2 ≤ a ∧ a < 0x20) ∨ (b.toNat = 0xE0 + a ∧ a < 0x10) ∨
      (b.toNat = 0xF0 + a ∧ a < 5) := by
  have hrange : 0xC2 ≤ b.toNat ∧ b.toNat ≤ 0xF4 := by
    revert h
    unfold of?
    simp only [UInt8.lt_iff_toNat_lt, UInt8.le_iff_toNat_le, ← UInt8.toNat_inj, UInt8.reduceToNat]
    grind
  by_cases htwo : b.toNat < 0xE0
  · exact ⟨b.toNat - 0xC0, .inl (by omega)⟩
  · by_cases hthree : b.toNat < 0xF0
    · exact ⟨b.toNat - 0xE0, .inr (.inl (by omega))⟩
    · exact ⟨b.toNat - 0xF0, .inr (.inr (by omega))⟩

theorem isTail_two_iff :
    IsTail (two a).low (two a).high (two a).count tail ↔ ∃ x, tail = [trailing x] ∧ x < 64 := by
  refine isTail_plain_iff.trans ?_
  constructor
  · rintro ⟨x, more, rfl, hx, rfl⟩
    exact ⟨x, rfl, hx⟩
  · rintro ⟨x, rfl, hx⟩
    exact ⟨x, [], rfl, hx, rfl⟩

/-- The range for the second of three bytes leaves out what two bytes can spell, and the
surrogates. -/
theorem isTail_three_iff (ha : a < 0x10) :
    IsTail (three a).low (three a).high (three a).count tail ↔
      ∃ x y, tail = [trailing x, trailing y] ∧ x < 64 ∧ y < 64 ∧
        0x800 ≤ (a * 64 + x) * 64 + y ∧ ((a * 64 + x) * 64 + y).isValidChar := by
  have hlow : (three a).low.toNat = if a = 0 then 0xA0 else 0x80 := apply_ite UInt8.toNat _ _ _
  have hhigh : (three a).high.toNat = if a = 0xD then 0x9F else 0xBF := apply_ite UInt8.toNat _ _ _
  refine (isTail_succ_iff (by grind) (by grind)).trans ?_
  rw [hlow, hhigh]
  simp only [Nat.isValidChar]
  constructor
  · rintro ⟨x, more, rfl, hx, hxlow, hxhigh, hmore⟩
    obtain ⟨y, _, rfl, hy, rfl⟩ := isTail_plain_iff.mp hmore
    exact ⟨x, y, rfl, hx, hy, by grind, by grind⟩
  · rintro ⟨x, y, rfl, hx, hy, hlong, hvalid⟩
    refine ⟨x, _, rfl, hx, by grind, by grind, ?_⟩
    exact isTail_plain_iff.mpr ⟨y, [], rfl, hy, rfl⟩

/-- The range for the second of four bytes leaves out what three bytes can spell, and what lies
behind the last character. -/
theorem isTail_four_iff (ha : a < 5) :
    IsTail (four a).low (four a).high (four a).count tail ↔
      ∃ x y z, tail = [trailing x, trailing y, trailing z] ∧ x < 64 ∧ y < 64 ∧ z < 64 ∧
        0x10000 ≤ ((a * 64 + x) * 64 + y) * 64 + z ∧
        ((a * 64 + x) * 64 + y) * 64 + z < 0x110000 := by
  have hlow : (four a).low.toNat = if a = 0 then 0x90 else 0x80 := apply_ite UInt8.toNat _ _ _
  have hhigh : (four a).high.toNat = if a = 4 then 0x8F else 0xBF := apply_ite UInt8.toNat _ _ _
  refine (isTail_succ_iff (by grind) (by grind)).trans ?_
  rw [hlow, hhigh]
  constructor
  · rintro ⟨x, more, rfl, hx, hxlow, hxhigh, hmore⟩
    obtain ⟨y, more, rfl, hy, hmore⟩ := isTail_plain_iff.mp hmore
    obtain ⟨z, _, rfl, hz, rfl⟩ := isTail_plain_iff.mp hmore
    exact ⟨x, y, z, rfl, hx, hy, hz, by grind, by grind⟩
  · rintro ⟨x, y, z, rfl, hx, hy, hz, hlong, hshort⟩
    refine ⟨x, _, rfl, hx, by grind, by grind, ?_⟩
    refine isTail_plain_iff.mpr ⟨y, _, rfl, hy, ?_⟩
    exact isTail_plain_iff.mpr ⟨z, [], rfl, hz, rfl⟩

end Lead

theorem toNat_ofNat {n : Nat} (h : n.isValidChar) : (Char.ofNat n).val.toNat = n := by
  rw [Char.ofNat, dif_pos h]
  exact UInt32.toNat_ofNatLT

section

variable {a x y z : Nat}

theorem utf8EncodeChar_two (hlong : 0x80 ≤ a * 64 + x) (ha : a < 0x20) (hx : x < 64) :
    String.utf8EncodeChar (Char.ofNat (a * 64 + x)) = [.ofNat (0xC0 + a), trailing x] := by
  have hn : (Char.ofNat (a * 64 + x)).val.toNat = a * 64 + x := toNat_ofNat (.inl (by omega))
  have hfirst : (a * 64 + x) / 64 % 32 + 192 = 0xC0 + a := by omega
  have hlast : (a * 64 + x) % 64 + 128 = 0x80 + x := by omega
  simp only [String.utf8EncodeChar, hn]
  rw [if_neg (by omega), if_pos (by omega), hfirst, hlast]
  rfl

theorem utf8EncodeChar_three (hlong : 0x800 ≤ (a * 64 + x) * 64 + y) (ha : a < 0x10) (hx : x < 64)
    (hy : y < 64) (hvalid : ((a * 64 + x) * 64 + y).isValidChar) :
    String.utf8EncodeChar (Char.ofNat ((a * 64 + x) * 64 + y)) =
      [.ofNat (0xE0 + a), trailing x, trailing y] := by
  have hn := toNat_ofNat hvalid
  have hfirst : ((a * 64 + x) * 64 + y) / 4096 % 16 + 224 = 0xE0 + a := by omega
  have hsecond : ((a * 64 + x) * 64 + y) / 64 % 64 + 128 = 0x80 + x := by omega
  have hlast : ((a * 64 + x) * 64 + y) % 64 + 128 = 0x80 + y := by omega
  simp only [String.utf8EncodeChar, hn]
  rw [if_neg (by omega), if_neg (by omega), if_pos (by omega), hfirst, hsecond, hlast]
  rfl

theorem utf8EncodeChar_four (hlong : 0x10000 ≤ ((a * 64 + x) * 64 + y) * 64 + z)
    (hshort : ((a * 64 + x) * 64 + y) * 64 + z < 0x110000) (hx : x < 64) (hy : y < 64)
    (hz : z < 64) :
    String.utf8EncodeChar (Char.ofNat (((a * 64 + x) * 64 + y) * 64 + z)) =
      [.ofNat (0xF0 + a), trailing x, trailing y, trailing z] := by
  have hn : (Char.ofNat (((a * 64 + x) * 64 + y) * 64 + z)).val.toNat =
      ((a * 64 + x) * 64 + y) * 64 + z := toNat_ofNat (.inr ⟨by omega, hshort⟩)
  have hfirst : (((a * 64 + x) * 64 + y) * 64 + z) / 262144 % 8 + 240 = 0xF0 + a := by omega
  have hsecond : (((a * 64 + x) * 64 + y) * 64 + z) / 4096 % 64 + 128 = 0x80 + x := by omega
  have hthird : (((a * 64 + x) * 64 + y) * 64 + z) / 64 % 64 + 128 = 0x80 + y := by omega
  have hlast : (((a * 64 + x) * 64 + y) * 64 + z) % 64 + 128 = 0x80 + z := by omega
  simp only [String.utf8EncodeChar, hn]
  rw [if_neg (by omega), if_neg (by omega), if_neg (by omega), hfirst, hsecond, hthird, hlast]
  rfl

end

/-- A first byte with the bytes that it announces spells a character. -/
theorem utf8EncodeChar_of_lead {b : UInt8} {lead : Lead} {tail : Bytes}
    (hlead : Lead.of? b = some lead) (htail : IsTail lead.low lead.high lead.count tail) :
    String.utf8EncodeChar (Char.ofNat (code lead.bits tail)) = b :: tail := by
  have hfirst {n : Nat} (hb : b.toNat = n) : UInt8.ofNat n = b := by
    rw [← hb, UInt8.ofNat_toNat]
  obtain ⟨a, ⟨hb, ha, ha'⟩ | ⟨hb, ha⟩ | ⟨hb, ha⟩⟩ :=
    Lead.exists_of_isSome (Option.isSome_of_eq_some hlead)
  · obtain rfl := Option.some.inj ((Lead.of?_two hb ha ha').symm.trans hlead)
    obtain ⟨x, rfl, hx⟩ := Lead.isTail_two_iff.mp htail
    have hlong : 0x80 ≤ a * 64 + x := by omega
    rw [code_trailing hx, ← hfirst hb]
    exact utf8EncodeChar_two hlong ha' hx
  · obtain rfl := Option.some.inj ((Lead.of?_three hb ha).symm.trans hlead)
    obtain ⟨x, y, rfl, hx, hy, hlong, hvalid⟩ := (Lead.isTail_three_iff ha).mp htail
    rw [code_trailing hx, code_trailing hy, ← hfirst hb]
    exact utf8EncodeChar_three hlong ha hx hy hvalid
  · obtain rfl := Option.some.inj ((Lead.of?_four hb ha).symm.trans hlead)
    obtain ⟨x, y, z, rfl, hx, hy, hz, hlong, hshort⟩ := (Lead.isTail_four_iff ha).mp htail
    rw [code_trailing hx, code_trailing hy, code_trailing hz, ← hfirst hb]
    exact utf8EncodeChar_four hlong hshort hx hy hz

/-- Every character beyond ASCII is spelled by a first byte with the bytes that it announces. -/
theorem exists_lead {c : Char} (hc : 0x80 ≤ c.val.toNat) :
    ∃ b lead tail, String.utf8EncodeChar c = b :: tail ∧ 0x80 ≤ b.toNat ∧
      Lead.of? b = some lead ∧ IsTail lead.low lead.high lead.count tail ∧
      Char.ofNat (code lead.bits tail) = c := by
  have hvalid : c.val.toNat.isValidChar := c.valid
  have hself : Char.ofNat c.val.toNat = c := Char.ofNat_toNat c
  have hfirst {n : Nat} (hn : n < 256) : (UInt8.ofNat n).toNat = n := UInt8.toNat_ofNat_of_lt' hn
  by_cases htwo : c.val.toNat < 0x800
  · obtain ⟨a, x, hx, hn⟩ : ∃ a x, x < 64 ∧ c.val.toNat = a * 64 + x :=
      ⟨c.val.toNat / 64, c.val.toNat % 64, by omega, by omega⟩
    rw [hn] at hself
    have hb := hfirst (show 0xC0 + a < 256 by omega)
    refine ⟨_, _, [trailing x], ?_, by omega, Lead.of?_two hb (by omega) (by omega),
      Lead.isTail_two_iff.mpr ⟨x, rfl, hx⟩, ?_⟩
    · rw [← hself]
      exact utf8EncodeChar_two (by omega) (by omega) hx
    · rw [code_trailing hx]
      exact hself
  · by_cases hthree : c.val.toNat < 0x10000
    · obtain ⟨a, x, y, hx, hy, hn⟩ :
          ∃ a x y, x < 64 ∧ y < 64 ∧ c.val.toNat = (a * 64 + x) * 64 + y :=
        ⟨c.val.toNat / 4096, c.val.toNat / 64 % 64, c.val.toNat % 64, by omega, by omega, by omega⟩
      rw [hn] at hself hvalid
      have ha : a < 0x10 := by omega
      have hb := hfirst (show 0xE0 + a < 256 by omega)
      refine ⟨_, _, [trailing x, trailing y], ?_, by omega, Lead.of?_three hb ha,
        (Lead.isTail_three_iff ha).mpr ⟨x, y, rfl, hx, hy, by omega, hvalid⟩, ?_⟩
      · rw [← hself]
        exact utf8EncodeChar_three (by omega) ha hx hy hvalid
      · rw [code_trailing hx, code_trailing hy]
        exact hself
    · have hshort : c.val.toNat < 0x110000 := by
        rcases hvalid with h | h <;> omega
      obtain ⟨a, x, y, z, hx, hy, hz, hn⟩ : ∃ a x y z, x < 64 ∧ y < 64 ∧ z < 64 ∧
          c.val.toNat = ((a * 64 + x) * 64 + y) * 64 + z :=
        ⟨c.val.toNat / 262144, c.val.toNat / 4096 % 64, c.val.toNat / 64 % 64, c.val.toNat % 64,
          by omega, by omega, by omega, by omega⟩
      rw [hn] at hself
      have hb := hfirst (show 0xF0 + a < 256 by omega)
      refine ⟨_, _, [trailing x, trailing y, trailing z], ?_, by omega,
        Lead.of?_four hb (by omega),
        (Lead.isTail_four_iff (by omega)).mpr ⟨x, y, z, rfl, hx, hy, hz, by omega, by omega⟩, ?_⟩
      · rw [← hself]
        exact utf8EncodeChar_four (by omega) (by omega) hx hy hz
      · rw [code_trailing hx, code_trailing hy, code_trailing hz]
        exact hself

theorem utf8EncodeChar_of_lt {c : Char} (hc : c.val.toNat < 0x80) :
    String.utf8EncodeChar c = [.ofNat c.val.toNat] := by
  simp only [String.utf8EncodeChar]
  rw [if_pos (by omega)]

/-- The first piece of bytes is a character exactly when they start with its spelling. -/
theorem first_eq_char_iff (b : UInt8) (rest left : Bytes) (c : Char) :
    first b rest = (.char c, left) ↔ String.utf8EncodeChar c ++ left = b :: rest := by
  constructor
  · intro h
    unfold first at h
    split at h
    · rename_i hascii
      rw [UInt8.lt_iff_toNat_lt] at hascii
      change b.toNat < 0x80 at hascii
      have hn : (Char.ofNat b.toNat).val.toNat = b.toNat := toNat_ofNat (.inl (by omega))
      obtain ⟨hc, rfl⟩ := Prod.mk.inj h
      obtain rfl := Piece.char.inj hc
      rw [utf8EncodeChar_of_lt (by omega), hn, UInt8.ofNat_toNat, List.singleton_append]
    · split at h
      · cases h
      · rename_i lead hlead
        dsimp only at h
        split at h
        · rename_i hlength
          obtain ⟨hc, rfl⟩ := Prod.mk.inj h
          obtain rfl := Piece.char.inj hc
          rw [utf8EncodeChar_of_lead hlead (isTail_of_following hlength), List.cons_append,
            following_append]
        · cases h
  · intro h
    by_cases hascii : c.val.toNat < 0x80
    · rw [utf8EncodeChar_of_lt hascii, List.singleton_append] at h
      obtain ⟨rfl, rfl⟩ := List.cons.inj h
      have hb : (UInt8.ofNat c.val.toNat).toNat = c.val.toNat :=
        UInt8.toNat_ofNat_of_lt' (by change _ < 256; omega)
      rw [first, if_pos (by rw [UInt8.lt_iff_toNat_lt, hb]; exact hascii), hb]
      exact congrArg (Piece.char · , _) (Char.ofNat_toNat c)
    · obtain ⟨b', lead, tail, hspell, hb, hlead, htail, hself⟩ := exists_lead (Nat.not_lt.mp hascii)
      rw [hspell, List.cons_append] at h
      obtain ⟨rfl, rfl⟩ := List.cons.inj h
      obtain ⟨hfollowing, hlength⟩ := following_of_isTail htail left
      rw [first, if_neg (by rw [UInt8.lt_iff_toNat_lt]; exact Nat.not_lt.mpr hb), hlead]
      simp only [hfollowing, hlength, if_true, hself]

theorem pieces_utf8EncodeChar_append (c : Char) (rest : Bytes) :
    pieces (String.utf8EncodeChar c ++ rest) = .char c :: pieces rest := by
  cases h : String.utf8EncodeChar c with
  | nil => exact absurd h String.utf8EncodeChar_ne_nil
  | cons b tail =>
    have hfirst : first b (tail ++ rest) = (.char c, rest) := by
      rw [first_eq_char_iff, h, List.cons_append]
    rw [List.cons_append, pieces, hfirst]

theorem characters?_pieces_flatMap (cs : List Char) :
    characters? (pieces (cs.flatMap String.utf8EncodeChar)) = some cs := by
  induction cs with
  | nil => rw [List.flatMap_nil, pieces, characters?]
  | cons c cs ih =>
    rw [List.flatMap_cons, pieces_utf8EncodeChar_append, characters?, ih, Option.map_some]

theorem flatMap_of_characters?_pieces {bytes : Bytes} {cs : List Char}
    (h : characters? (pieces bytes) = some cs) : cs.flatMap String.utf8EncodeChar = bytes := by
  fun_induction pieces bytes generalizing cs with
  | case1 =>
    obtain rfl := Option.some.inj h
    rfl
  | case2 b rest ih =>
    cases hfirst : first b rest with
    | mk piece left =>
      rw [hfirst] at h ih
      cases piece with
      | broken bytes => cases h
      | char c =>
        obtain ⟨cs', hcs', rfl⟩ := Option.map_eq_some_iff.mp h
        rw [List.flatMap_cons, ih hcs']
        exact (first_eq_char_iff b rest left c).mp hfirst

/-- Bytes spell a text exactly when they are its bytes. -/
theorem decode?_eq_some_iff (bytes : Bytes) (s : String) :
    decode? bytes = some s ↔ encode s = bytes := by
  constructor
  · intro h
    obtain ⟨cs, hcs, rfl⟩ := Option.map_eq_some_iff.mp h
    rw [encode, String.toList_ofList]
    exact flatMap_of_characters?_pieces hcs
  · rintro rfl
    rw [decode?, encode, characters?_pieces_flatMap, Option.map_some, String.ofList_toList]

@[simp] theorem decode?_encode (s : String) : decode? (encode s) = some s :=
  (decode?_eq_some_iff _ s).mpr rfl

end DeferredOpen.Utf8
