/-!
# Lengths of time

A length of time is a number of nanoseconds, at most `2^64` seconds less a nanosecond. Products
beyond that bound stop at it. A length is shown in the largest of seconds, milliseconds,
microseconds and nanoseconds that it reaches, with as many decimals as it needs.
-/

namespace ResumableUpload

/-- A length of time in nanoseconds. -/
structure Duration where
  nanos : Nat
  deriving DecidableEq

namespace Duration

/-- The longest length of time that can be written down. -/
def longest : Duration := ⟨UInt64.size * 1000000000 - 1⟩

def ofSeconds (n : Nat) : Duration := ⟨n * 1000000000⟩

def ofMillis (n : Nat) : Duration := ⟨n * 1000000⟩

def seconds (d : Duration) : Nat := d.nanos / 1000000000

/-- What is left beside the whole seconds, in nanoseconds. -/
def subsecond (d : Duration) : Nat := d.nanos % 1000000000

def millis (d : Duration) : Nat := d.nanos / 1000000

/-- The least number of whole milliseconds that is not shorter. -/
def millisUp (d : Duration) : Nat := (d.nanos + 999999) / 1000000

def shorter (a b : Duration) : Duration := if a.nanos ≤ b.nanos then a else b

/-- A multiple, cut off at the longest length of time. -/
def times (d : Duration) (n : Nat) : Duration :=
  shorter ⟨d.nanos * n⟩ longest

theorem nanos_shorter (a b : Duration) : (shorter a b).nanos = min a.nanos b.nanos := by
  unfold shorter; split <;> omega

theorem nanos_times (d : Duration) (n : Nat) :
    (d.times n).nanos = min (d.nanos * n) longest.nanos := nanos_shorter _ _

/-- The decimals of `part / 10^places`, without zeros at the end. -/
def decimals (part places : Nat) : List Char :=
  let digits := Nat.toDigits 10 part
  let padded := List.replicate (places - digits.length) '0' ++ digits
  (padded.reverse.dropWhile (· == '0')).reverse

/-- A whole number, its decimals if there are any, and a unit. -/
def withUnit (whole part places : Nat) (unit : String) : String :=
  match decimals part places with
  | [] => toString whole ++ unit
  | ds => toString whole ++ "." ++ String.ofList ds ++ unit

/-- A length of time as shown in messages: `60s`, `1.5s`, `20ms`, `0ns`. -/
def text (d : Duration) : String :=
  if 1000000000 ≤ d.nanos then withUnit d.seconds d.subsecond 9 "s"
  else if 1000000 ≤ d.nanos then withUnit (d.nanos / 1000000) (d.nanos % 1000000) 6 "ms"
  else if 1000 ≤ d.nanos then withUnit (d.nanos / 1000) (d.nanos % 1000) 3 "µs"
  else toString d.nanos ++ "ns"

end Duration

end ResumableUpload
