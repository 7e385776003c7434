import PeerLink.Toml.Value

/-!
Values that are written without quotes or brackets: truth values, numbers, dates and times. Such a value
ends where a character follows that none of them contains, so that it can be read as a whole.
-/
namespace PeerLink.Toml.Bare

def isDigit (c : Char) : Bool := '0' ≤ c && c ≤ '9'

def isHexDigit (c : Char) : Bool :=
  isDigit c || ('a' ≤ c && c ≤ 'f') || ('A' ≤ c && c ≤ 'F')

/-- Whether the character can stand in such a value. -/
def isPart (c : Char) : Bool :=
  c.isAlphanum || c == '+' || c == '-' || c == '_' || c == '.' || c == ':'

def digitValue (c : Char) : Nat :=
  if isDigit c then c.toNat - '0'.toNat
  else if 'a' ≤ c then c.toNat - 'a'.toNat + 10 else c.toNat - 'A'.toNat + 10

def number (base : Nat) (cs : List Char) : Nat :=
  cs.foldl (fun n c => base * n + digitValue c) 0

/-- Digits without the underscores between them, if each underscore stands between two digits. -/
def digits? (isDigit : Char → Bool) : List Char → Option (List Char)
  | [] => none
  | [c] => if isDigit c then some [c] else none
  | c :: '_' :: d :: cs => if isDigit c then (digits? isDigit (d :: cs)).map (c :: ·) else none
  | c :: d :: cs => if isDigit c then (digits? isDigit (d :: cs)).map (c :: ·) else none

/-- Takes a sign off: whether it is a minus, and the rest. -/
def unsign : List Char → Bool × List Char
  | '-' :: cs => (true, cs)
  | '+' :: cs => (false, cs)
  | cs => (false, cs)

/-- Decimal digits without a leading zero. -/
def decimal? (cs : List Char) : Option (List Char) := do
  let ds ← digits? isDigit cs
  if ds.head? = some '0' ∧ cs.length ≠ 1 then none
  return ds

/-- A whole number of 64 bits. Only a decimal one can have a sign. -/
def integer? (cs : List Char) : Option Int := do
  let n ← match cs with
    | '0' :: 'x' :: cs => (fun ds => (number 16 ds : Int)) <$> digits? isHexDigit cs
    | '0' :: 'o' :: cs => (fun ds => (number 8 ds : Int)) <$> digits? (fun c => '0' ≤ c && c ≤ '7') cs
    | '0' :: 'b' :: cs => (fun ds => (number 2 ds : Int)) <$> digits? (fun c => c == '0' || c == '1') cs
    | cs =>
      let (negative, cs) := unsign cs
      (fun ds => if negative then -(number 10 ds : Int) else number 10 ds) <$> decimal? cs
  if -0x8000000000000000 ≤ n ∧ n < 0x8000000000000000 then some n else none

/-- Whether m · 10^e is nearer to 2^1024 than to the largest double, or beyond. -/
def overflows (m : Nat) (e : Int) : Bool :=
  if m = 0 then false
  else
    let magnitude := (Nat.toDigits 10 m).length + e
    if 310 ≤ magnitude then true
    else if magnitude ≤ 308 then false
    else
      let limit := (1 <<< 1024) - (1 <<< 970)
      if 0 ≤ e then decide (limit ≤ m * Nat.pow 10 e.toNat) else decide (limit * Nat.pow 10 (-e).toNat ≤ m)

/-- Whether the text is a number with a fraction or an exponent, and not too large. -/
def isFloat (cs : List Char) : Bool :=
  let (negative, cs) := unsign cs
  if cs = "inf".toList ∨ cs = "nan".toList then true
  else
    let whole := cs.takeWhile fun c => !(c == '.' || c == 'e' || c == 'E')
    let rest := cs.drop whole.length
    let (fraction, exponent) : Option (List Char) × Option (List Char) :=
      match rest with
      | '.' :: rest =>
        let fraction := rest.takeWhile fun c => !(c == 'e' || c == 'E')
        match rest.drop fraction.length with
        | _ :: exponent => (some fraction, some exponent)
        | [] => (some fraction, none)
      | _ :: exponent => (none, some exponent)
      | [] => (none, none)
    if fraction.isNone && exponent.isNone then false
    else
      match decimal? whole, digits? isDigit (fraction.getD ['0']) with
      | some whole, some fraction =>
        let (shrinks, exponent) := unsign (exponent.getD ['0'])
        match digits? isDigit exponent with
        | some exponent =>
          let e : Int := number 10 exponent
          let e := (if shrinks then -e else e) - fraction.length
          negative || !overflows (number 10 (whole ++ fraction)) e
        | none => false
      | _, _ => false

/-- The number of exactly as many digits, if it lies between the bounds. -/
def field? (size low high : Nat) (cs : List Char) : Option (Nat × List Char) :=
  let ds := cs.take size
  if ds.length = size ∧ ds.all isDigit ∧ low ≤ number 10 ds ∧ number 10 ds ≤ high then
    some (number 10 ds, cs.drop size)
  else none

/-- What follows a given character. -/
def after? (c : Char) : List Char → Option (List Char)
  | d :: cs => if c = d then some cs else none
  | [] => none

def daysIn (year month : Nat) : Nat :=
  if month = 2 then
    if year % 4 = 0 ∧ (year % 100 ≠ 0 ∨ year % 400 = 0) then 29 else 28
  else if month = 4 ∨ month = 6 ∨ month = 9 ∨ month = 11 then 30
  else 31

/-- Takes off a day of the calendar. -/
def day? (cs : List Char) : Option (List Char) := do
  let (year, cs) ← field? 4 0 9999 cs
  let (month, cs) ← field? 2 1 12 (← after? '-' cs)
  let (day, cs) ← field? 2 1 31 (← after? '-' cs)
  if daysIn year month < day then none
  return cs

/-- Takes off a time of the day. A leap second may be the sixtieth. -/
def time? (cs : List Char) : Option (List Char) := do
  let (_, cs) ← field? 2 0 23 cs
  let (_, cs) ← field? 2 0 59 (← after? ':' cs)
  let (_, cs) ← field? 2 0 60 (← after? ':' cs)
  match cs with
  | '.' :: rest =>
    let digits := rest.takeWhile isDigit
    if digits.isEmpty then none else some (rest.drop digits.length)
  | _ => some cs

/-- Whether the text is the distance of a time zone, or nothing. -/
def isOffset (cs : List Char) : Bool :=
  match cs with
  | [] => true
  | ['Z'] | ['z'] => true
  | sign :: cs =>
    (sign == '+' || sign == '-') &&
      (do
        let (_, cs) ← field? 2 0 23 cs
        let (_, cs) ← field? 2 0 59 (← after? ':' cs)
        return cs.isEmpty : Option Bool) == some true

/-- Whether the text is a time of the day with a time zone or without. -/
def isZonedTime (cs : List Char) : Bool :=
  match time? cs with
  | some cs => isOffset cs
  | none => false

/-- Whether the text is a day, a time, or both with a letter between them. -/
def isDate (cs : List Char) : Bool :=
  match day? cs with
  | some [] => true
  | some (c :: cs) => (c == 'T' || c == 't') && isZonedTime cs
  | none => time? cs == some []

def ofText? (cs : List Char) : Option Value :=
  if cs = "true".toList then some (.boolean true)
  else if cs = "false".toList then some (.boolean false)
  else
    match integer? cs with
    | some n => some (.integer n)
    | none =>
      if isFloat cs then some (.float (String.ofList cs))
      else if isDate cs then some (.date (String.ofList cs))
      else none

/-- Takes such a value off a text. A blank may stand between a day and a time. -/
def scan? (cs : List Char) : Option (Value × List Char) := do
  let taken := cs.takeWhile isPart
  let rest := cs.drop taken.length
  match day? taken, rest with
  | some [], ' ' :: c :: more =>
    if isDigit c then
      let time := (c :: more).takeWhile isPart
      if isZonedTime time then
        return (.date (String.ofList (taken ++ ' ' :: time)), (c :: more).drop time.length)
      else none
    else return (.date (String.ofList taken), rest)
  | _, _ => return (← ofText? taken, rest)

end PeerLink.Toml.Bare
