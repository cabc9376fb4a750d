/-!
# Hexadecimal

Bytes as lower-case hexadecimal digits, two for each byte.
-/

namespace Spillway.Text

/-- The digit of a half byte. -/
def hexDigit (n : Nat) : Char :=
  if n < 10 then Char.ofNat ('0'.toNat + n) else Char.ofNat ('a'.toNat + (n - 10))

/-- The half byte of a digit. -/
def hexValue? (c : Char) : Option Nat :=
  if '0' ≤ c ∧ c ≤ '9' then some (c.toNat - '0'.toNat)
  else if 'a' ≤ c ∧ c ≤ 'f' then some (c.toNat - 'a'.toNat + 10)
  else if 'A' ≤ c ∧ c ≤ 'F' then some (c.toNat - 'A'.toNat + 10)
  else none

/-- Bytes as digits. -/
def hexText (bytes : ByteArray) : String :=
  bytes.data.foldl
    (fun text b => (text.push (hexDigit (b.toNat / 16))).push (hexDigit (b.toNat % 16))) ""

/-- Read digits after the bytes in `acc`. -/
def bytesFrom (acc : ByteArray) : List Char → Option ByteArray
  | [] => some acc
  | high :: low :: rest =>
    match hexValue? high, hexValue? low with
    | some h, some l => bytesFrom (acc.push (UInt8.ofNat (16 * h + l))) rest
    | _, _ => none
  | [_] => none

/-- The bytes that digits stand for. -/
def hexBytes? (text : String) : Option ByteArray := bytesFrom .empty text.toList

example : hexText ⟨#[0, 127, 255]⟩ = "007fff" := by decide

end Spillway.Text
