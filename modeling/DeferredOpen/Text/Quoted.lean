import DeferredOpen.Text.Utf8
import DeferredOpen.Text.Unicode

/-!
# Quoted texts

A quoted text stands between double quotes. The quote and the backslash, tab, line ends and NUL
have escapes of their own; other characters that cannot be seen, and marks, are written by their
code point, and the bytes of a broken run one by one.
-/

namespace DeferredOpen.Quoted

def hex (n : Nat) : List Char := Nat.toDigits 16 n

def escape (c : Char) : List Char :=
  if c = '"' then ['\\', '"']
  else if c = '\\' then ['\\', '\\']
  else if c = '\t' then ['\\', 't']
  else if c = '\n' then ['\\', 'n']
  else if c = '\r' then ['\\', 'r']
  else if c.toNat = 0 then ['\\', '0']
  else if Unicode.isShapeless c || Unicode.isMark c then
    ['\\', 'u', '\x7b'] ++ hex c.toNat ++ ['\x7d']
  else [c]

/-- A byte outside any character: two digits, letters in upper case. -/
def escapeByte (b : UInt8) : List Char :=
  ['\\', 'x'] ++ ((hex (b.toNat / 16)) ++ (hex (b.toNat % 16))).map Char.toUpper

def escapePiece : Utf8.Piece → List Char
  | .char c => escape c
  | .broken bytes => bytes.flatMap escapeByte

def between (cs : List Char) : String := String.ofList ('"' :: (cs ++ ['"']))

def text (s : String) : String := between (s.toList.flatMap escape)

def bytes (b : Bytes) : String := between ((Utf8.pieces b).flatMap escapePiece)

def list (ss : List String) : String := "[" ++ ", ".intercalate (ss.map text) ++ "]"

end DeferredOpen.Quoted
