import AiBridge.Utf8

namespace Text

/-- A character that is not complete: its bits so far, how many bytes it lacks, and the bounds of the
next one. -/
structure Unfinished where
  bits : Nat
  owed : Nat
  low : Nat
  high : Nat

/-- The first byte of a character. What cannot be one is replaced. -/
def leadByte (b : Nat) : List Char × Option Unfinished :=
  if b < 0x80 then ([Char.ofNat b], none)
  else if 0xC2 ≤ b ∧ b ≤ 0xDF then ([], some ⟨b - 0xC0, 1, 0x80, 0xBF⟩)
  else if 0xE0 ≤ b ∧ b ≤ 0xEF then
    ([], some ⟨b - 0xE0, 2, if b = 0xE0 then 0xA0 else 0x80, if b = 0xED then 0x9F else 0xBF⟩)
  else if 0xF0 ≤ b ∧ b ≤ 0xF4 then
    ([], some ⟨b - 0xF0, 3, if b = 0xF0 then 0x90 else 0x80, if b = 0xF4 then 0x8F else 0xBF⟩)
  else (['\ufffd'], none)

/-- A byte that does not continue the character starts anew, and what there was of the character is
replaced as a whole. -/
def nextByte : Option Unfinished → Nat → List Char × Option Unfinished
  | none, b => leadByte b
  | some u, b =>
    if u.low ≤ b ∧ b ≤ u.high then
      if u.owed = 1 then ([Char.ofNat (u.bits * 64 + (b - 0x80))], none)
      else ([], some ⟨u.bits * 64 + (b - 0x80), u.owed - 1, 0x80, 0xBF⟩)
    else ('\ufffd' :: (leadByte b).1, (leadByte b).2)

def lossyChars : Option Unfinished → List UInt8 → List Char
  | u, [] => if u.isSome then ['\ufffd'] else []
  | u, b :: rest => (nextByte u b.toNat).1 ++ lossyChars (nextByte u b.toNat).2 rest

/-- `String::from_utf8_lossy`. -/
def fromUtf8Lossy (bytes : List UInt8) : String := String.ofList (lossyChars none bytes)

/-- A byte that begins nothing, a character that is cut off, and one that is cut off in front of
another. -/
example : fromUtf8Lossy [0x61, 0xFF, 0x62] = "a\ufffdb" ∧ fromUtf8Lossy [0xE2, 0x82] = "\ufffd" ∧
    fromUtf8Lossy [0xE2, 0x82, 0xE2, 0x82, 0xAC] = "\ufffd€" := by
  decide

end Text
