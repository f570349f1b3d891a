/-!
# Numbers, dates and times of TOML

An integer is written in base ten, sixteen, eight or two and fits a signed word of 64 bits. A number
with a fraction or an exponent may not grow beyond the largest number of double precision. A date
must be a day of the calendar.
-/

namespace ResumableUpload.Toml

/-! ### Digits -/

/-- Further digits of a row; one underscore may stand between two digits. -/
def moreDigits (isDigit : Char → Bool) (done : List Char) :
    List Char → Option (List Char × List Char)
  | [] => some (done.reverse, [])
  | '_' :: [] => none
  | '_' :: d :: rest => if isDigit d then moreDigits isDigit (d :: done) rest else none
  | c :: rest =>
    if isDigit c then moreDigits isDigit (c :: done) rest else some (done.reverse, c :: rest)

def digits? (isDigit : Char → Bool) : List Char → Option (List Char × List Char)
  | [] => none
  | c :: rest => if isDigit c then moreDigits isDigit [c] rest else none

def digitValue (c : Char) : Nat :=
  if '0' ≤ c ∧ c ≤ '9' then c.toNat - 48
  else if 'a' ≤ c ∧ c ≤ 'f' then c.toNat - 87
  else c.toNat - 55

def valueIn (base : Nat) (digits : List Char) : Nat :=
  digits.foldl (fun n d => base * n + digitValue d) 0

def word? (n : Int) : Option Int :=
  if Int64.minValue.toInt ≤ n ∧ n ≤ Int64.maxValue.toInt then some n else none

def isBinaryDigit (c : Char) : Bool := c == '0' || c == '1'

def isOctalDigit (c : Char) : Bool := '0' ≤ c && c ≤ '7'

def isHexDigit (c : Char) : Bool :=
  c.isDigit || ('a' ≤ c && c ≤ 'f') || ('A' ≤ c && c ≤ 'F')

def based? (base : Nat) (isDigit : Char → Bool) (cs : List Char) : Option (Int × List Char) :=
  match digits? isDigit cs with
  | some (digits, rest) => (word? (valueIn base digits)).map (·, rest)
  | none => none

/-! ### Integers and floats -/

/-- What a number is. -/
inductive Number
  | int (n : Int)
  | float

def sign : List Char → Bool × List Char
  | '+' :: rest => (false, rest)
  | '-' :: rest => (true, rest)
  | cs => (false, cs)

/-- The digits of a whole number: a zero, or digits that do not start with one. -/
def whole? : List Char → Option (List Char × List Char)
  | '0' :: rest => some (['0'], rest)
  | cs => digits? Char.isDigit cs

def fraction? : List Char → Option (Option (List Char) × List Char)
  | '.' :: rest => (digits? Char.isDigit rest).map fun (digits, rest) => (some digits, rest)
  | cs => some (none, cs)

def exponent? : List Char → Option (Option Int × List Char)
  | [] => some (none, [])
  | e :: cs =>
    if e == 'e' || e == 'E' then
      let (negative, rest) := sign cs
      match digits? Char.isDigit rest with
      | some (digits, rest) =>
        let n : Int := valueIn 10 digits
        some (some (if negative then -n else n), rest)
      | none => none
    else some (none, e :: cs)

/-- The least number that rounds to an infinity in double precision. -/
def overflowBound : Nat := 1 <<< 1024 - 1 <<< 970

/-- The number written by digits and a power of ten is too large for double precision. Very large
and very small powers are told by the place of the first digit. -/
def overflows (digits : List Char) (power : Int) : Bool :=
  let significant := digits.dropWhile (· == '0')
  let place : Int := significant.length + power
  if significant.isEmpty || place < 300 then false
  else if 400 < place then true
  else
    let n := valueIn 10 significant
    if 0 ≤ power then overflowBound ≤ n * Nat.pow 10 power.toNat
    else overflowBound * Nat.pow 10 (-power).toNat ≤ n

def decimal? (cs : List Char) : Option (Number × List Char) :=
  let (negative, unsigned) := sign cs
  match unsigned with
  | 'i' :: 'n' :: 'f' :: rest => some (.float, rest)
  | 'n' :: 'a' :: 'n' :: rest => some (.float, rest)
  | _ => do
    let (whole, rest) ← whole? unsigned
    let (fraction, rest) ← fraction? rest
    let (exponent, rest) ← exponent? rest
    match fraction, exponent with
    | none, none =>
      let n : Int := valueIn 10 whole
      let n ← word? (if negative then -n else n)
      some (.int n, rest)
    | _, _ =>
      let fraction := fraction.getD []
      let power := exponent.getD 0 - fraction.length
      if !negative && overflows (whole ++ fraction) power then none else some (.float, rest)

def number? : List Char → Option (Number × List Char)
  | '0' :: 'x' :: rest => (based? 16 isHexDigit rest).map fun (n, rest) => (.int n, rest)
  | '0' :: 'o' :: rest => (based? 8 isOctalDigit rest).map fun (n, rest) => (.int n, rest)
  | '0' :: 'b' :: rest => (based? 2 isBinaryDigit rest).map fun (n, rest) => (.int n, rest)
  | cs => decimal? cs

/-! ### Dates and times -/

/-- A number of two digits from `low` to `high`. -/
def twoDigits? (low high : Nat) : List Char → Option (Nat × List Char)
  | a :: b :: rest =>
    if a.isDigit && b.isDigit then
      let n := valueIn 10 [a, b]
      if low ≤ n ∧ n ≤ high then some (n, rest) else none
    else none
  | _ => none

def mark? (c : Char) : List Char → Option (List Char)
  | d :: rest => if c == d then some rest else none
  | [] => none

def daysIn (year month : Nat) : Nat :=
  if month = 2 then
    if year % 4 = 0 ∧ (year % 100 ≠ 0 ∨ year % 400 = 0) then 29 else 28
  else if month ∈ [4, 6, 9, 11] then 30
  else 31

def date? : List Char → Option (List Char)
  | a :: b :: c :: d :: '-' :: rest =>
    if [a, b, c, d].all Char.isDigit then do
      let (month, rest) ← twoDigits? 1 12 rest
      let rest ← mark? '-' rest
      let (_, rest) ← twoDigits? 1 (daysIn (valueIn 10 [a, b, c, d]) month) rest
      some rest
    else none
  | _ => none

/-- The text after a fraction of a second, if there is one. -/
def skipSubsecond : List Char → List Char
  | '.' :: d :: rest => if d.isDigit then rest.dropWhile Char.isDigit else '.' :: d :: rest
  | cs => cs

def time? (cs : List Char) : Option (List Char) := do
  let (_, rest) ← twoDigits? 0 23 cs
  let rest ← mark? ':' rest
  let (_, rest) ← twoDigits? 0 59 rest
  let rest ← mark? ':' rest
  let (_, rest) ← twoDigits? 0 60 rest
  some (skipSubsecond rest)

/-- The text after the offset from universal time, if there is one. -/
def offset? : List Char → Option (List Char)
  | c :: rest =>
    if c == 'Z' || c == 'z' then some rest
    else if c == '+' || c == '-' then do
      let (_, rest) ← twoDigits? 0 23 rest
      let rest ← mark? ':' rest
      let (_, rest) ← twoDigits? 0 59 rest
      some rest
    else some (c :: rest)
  | [] => some []

def moment? (cs : List Char) : Option (List Char) :=
  match date? cs with
  | some [] => some []
  | some (c :: rest) =>
    if c == 'T' || c == 't' || c == ' ' then
      match time? rest with
      | some rest => offset? rest
      | none => some (c :: rest)
    else some (c :: rest)
  | none => time? cs

end ResumableUpload.Toml
