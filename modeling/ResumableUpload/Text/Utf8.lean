/-!
# Bytes read as UTF-8

Text is read from bytes that may not be valid UTF-8. The reader goes byte by byte and keeps the
character it is in the middle of; a byte that cannot go on with that character ends it there. Each
such broken piece, as long as it can be, and each byte that begins no character, reads as U+FFFD.
-/

namespace ResumableUpload.Text.Utf8

/-- The bytes that may come next, from the lowest to the highest. -/
structure Span where
  low : Nat
  high : Nat
  deriving DecidableEq

def Span.tail : Span := ⟨0x80, 0xBF⟩

/-- A character under way: its bits so far and what must follow. -/
structure Pending where
  bits : Nat
  next : Span
  /-- How many bytes must come after the next one. -/
  more : Nat
  deriving DecidableEq

def replacement : Char := '\ufffd'

/-- The character that a byte begins: all of it, or what is known of it; nothing if the byte begins
no character. -/
def first (b : Nat) : Option (Char ⊕ Pending) :=
  if b < 0x80 then some (.inl (Char.ofNat b))
  else if b < 0xC2 then none
  else if b < 0xE0 then some (.inr ⟨b - 0xC0, .tail, 0⟩)
  else if b = 0xE0 then some (.inr ⟨0, ⟨0xA0, 0xBF⟩, 1⟩)
  else if b = 0xED then some (.inr ⟨0xD, ⟨0x80, 0x9F⟩, 1⟩)
  else if b < 0xF0 then some (.inr ⟨b - 0xE0, .tail, 1⟩)
  else if b = 0xF0 then some (.inr ⟨0, ⟨0x90, 0xBF⟩, 2⟩)
  else if b < 0xF4 then some (.inr ⟨b - 0xF0, .tail, 2⟩)
  else if b = 0xF4 then some (.inr ⟨4, ⟨0x80, 0x8F⟩, 2⟩)
  else none

def enter (b : Nat) : List Char × Option Pending :=
  match first b with
  | some (.inl c) => ([c], none)
  | some (.inr p) => ([], some p)
  | none => ([replacement], none)

/-- One byte: the characters that are over with it, and the one under way. -/
def step (p : Option Pending) (b : Nat) : List Char × Option Pending :=
  match p with
  | none => enter b
  | some p =>
    if p.next.low ≤ b ∧ b ≤ p.next.high then
      let bits := p.bits * 64 + b % 64
      match p.more with
      | 0 => ([Char.ofNat bits], none)
      | n + 1 => ([], some ⟨bits, .tail, n⟩)
    else
      let (cs, p) := enter b
      (replacement :: cs, p)

def run (p : Option Pending) : List UInt8 → List Char
  | [] => if p.isSome then [replacement] else []
  | b :: rest =>
    let (cs, p) := step p b.toNat
    cs ++ run p rest

end Utf8

def ofUtf8 (bytes : ByteArray) : String := String.ofList (Utf8.run none bytes.toList)

end ResumableUpload.Text
