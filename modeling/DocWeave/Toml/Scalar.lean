import DocWeave.Text.Parts
import DocWeave.Toml.Value

/-!
# Bare values

Booleans, numbers, dates and times are written without quotes.

- `integer?`, `isFloat`, `isDateTime`: which texts are such values. An integer has to fit into 128 bits,
  and a floating-point number must not round to infinity.
- `bareValue?`: the value that a text is.
-/

namespace DocWeave.Toml

/-- A decimal digit. -/
def isDigit (c : Char) : Bool :=
  '0' ≤ c && c ≤ '9'

/-- A hexadecimal digit. -/
def isHexDigit (c : Char) : Bool :=
  isDigit c || ('a' ≤ c && c ≤ 'f') || ('A' ≤ c && c ≤ 'F')

/-- The value of a hexadecimal digit. -/
def hexValue (c : Char) : Nat :=
  if isDigit c then c.toNat - '0'.toNat
  else if 'a' ≤ c && c ≤ 'f' then c.toNat - 'a'.toNat + 10
  else c.toNat - 'A'.toNat + 10

/-- Digits, with single underscores between them. -/
def isDigits (isDigit : Char → Bool) (s : List Char) : Bool :=
  (Text.split '_' s).all fun group => group ≠ [] && group.all isDigit

/-- A decimal number without a sign; only zero itself starts with a zero. -/
def isDecimal (s : List Char) : Bool :=
  isDigits isDigit s && (s.length ≤ 1 || s.head? ≠ some '0')

/-- A text without the sign at its start. -/
def dropSign : List Char → List Char
  | '+' :: rest => rest
  | '-' :: rest => rest
  | s => s

/-- The number that digits of a base write; underscores between them do not count. -/
def numberIn (base : Nat) (digits : List Char) : Nat :=
  (digits.filter (· ≠ '_')).foldl (fun n c => n * base + hexValue c) 0

/-- The number with a sign in front of it. -/
def withSign (s : List Char) (n : Nat) : Int :=
  if s.head? = some '-' then -n else n

/-- The integer that a text is: decimal with an optional sign, or with a prefix for its base. -/
def integer? : List Char → Option Int
  | '0' :: 'x' :: rest => if isDigits isHexDigit rest then some (numberIn 16 rest) else none
  | '0' :: 'o' :: rest =>
    if isDigits (fun c => '0' ≤ c && c ≤ '7') rest then some (numberIn 8 rest) else none
  | '0' :: 'b' :: rest =>
    if isDigits (fun c => c = '0' || c = '1') rest then some (numberIn 2 rest) else none
  | s =>
    let digits := dropSign s
    if isDecimal digits then some (withSign s (numberIn 10 digits)) else none

/-- Whether an integer fits into 128 bits, with a sign or without one. -/
def fitsWord (n : Int) : Bool :=
  -(Nat.pow 2 127 : Nat) ≤ n && n < (Nat.pow 2 128 : Nat)

/-- Whether a text is a decimal number, perhaps with digits after a point. -/
def isMantissa (s : List Char) : Bool :=
  match Text.split '.' s with
  | [whole] => isDecimal whole
  | [whole, fraction] => isDecimal whole && isDigits isDigit fraction
  | _ => false

/-- The least number that rounds to infinity with a mantissa of 53 bits: half a unit above the
largest finite one, which is `2 ^ 1024 - 2 ^ 971`. -/
def overflow : Nat :=
  Nat.pow 2 1024 - Nat.pow 2 970

/-- Whether `digits * 10 ^ exponent` rounds to a finite number. Since `10 ^ 308` does and `10 ^ 309`
does not, the count of digits settles all but one exponent. -/
def isFinite (digits : Nat) (exponent : Int) : Bool :=
  if digits = 0 then true
  else
    let size : Int := (Nat.repr digits).length + exponent
    if size ≤ 308 then true
    else if 310 ≤ size then false
    else digits * Nat.pow 10 exponent.toNat < overflow * Nat.pow 10 (-exponent).toNat

/-- Whether the number with a mantissa and an exponent rounds to a finite one. -/
def isFiniteText (mantissa : List Char) (exponent : Int) : Bool :=
  let fraction := (mantissa.dropWhile (· ≠ '.')).filter isDigit
  isFinite (numberIn 10 (mantissa.filter (· ≠ '.'))) (exponent - fraction.length)

/-- Whether a text is a floating-point number: with digits after a point, with an exponent, or both.
-/
def isFloat (s : List Char) : Bool :=
  let s := dropSign s
  let mantissa := s.takeWhile fun c => c ≠ 'e' && c ≠ 'E'
  match s.drop mantissa.length with
  | [] =>
    s = "inf".toList || s = "nan".toList ||
      (s.contains '.' && isMantissa s && isFiniteText mantissa 0)
  | _ :: exponent =>
    let digits := dropSign exponent
    isMantissa mantissa && isDigits isDigit digits &&
      isFiniteText mantissa (withSign exponent (numberIn 10 digits))

/-- The number that is written with a fixed count of digits, if it is in a range. -/
def fixedNumber? (count low high : Nat) (s : List Char) : Option Nat :=
  if s.length = count && s.all isDigit && low ≤ numberIn 10 s && numberIn 10 s ≤ high then
    some (numberIn 10 s)
  else none

/-- The number of days of a month. -/
def daysIn (year month : Nat) : Nat :=
  if month = 2 then
    if (year % 4 = 0 && year % 100 ≠ 0) || year % 400 = 0 then 29 else 28
  else if [4, 6, 9, 11].contains month then 30
  else 31

/-- Whether a text is a date. -/
def isDate (s : List Char) : Bool :=
  match Text.split '-' s with
  | [year, month, day] =>
    match fixedNumber? 4 0 9999 year, fixedNumber? 2 1 12 month with
    | some year, some month => (fixedNumber? 2 1 (daysIn year month) day).isSome
    | _, _ => false
  | _ => false

/-- Whether a text is a count of seconds, perhaps with a fraction. -/
def isSeconds (s : List Char) : Bool :=
  match Text.split '.' s with
  | [whole] => (fixedNumber? 2 0 60 whole).isSome
  | [whole, fraction] => (fixedNumber? 2 0 60 whole).isSome && fraction ≠ [] && fraction.all isDigit
  | _ => false

/-- Whether a text is a time of day. Seconds may be left out. -/
def isTime (s : List Char) : Bool :=
  match Text.split ':' s with
  | [hour, minute] => (fixedNumber? 2 0 23 hour).isSome && (fixedNumber? 2 0 59 minute).isSome
  | [hour, minute, seconds] =>
    (fixedNumber? 2 0 23 hour).isSome && (fixedNumber? 2 0 59 minute).isSome && isSeconds seconds
  | _ => false

/-- Whether a text is a time of day with an optional offset from universal time. -/
def isOffsetTime (s : List Char) : Bool :=
  let time := s.takeWhile fun c => isDigit c || c = ':' || c = '.'
  isTime time &&
    match s.drop time.length with
    | [] | ['Z'] | ['z'] => true
    | '+' :: offset | '-' :: offset =>
      match Text.split ':' offset with
      | [hour, minute] => (fixedNumber? 2 0 23 hour).isSome && (fixedNumber? 2 0 59 minute).isSome
      | _ => false
    | _ => false

/-- Whether a text is a date, a time, or a date and a time with `T` or a space between them. -/
def isDateTime (s : List Char) : Bool :=
  let date := s.takeWhile fun c => isDigit c || c = '-'
  match s.drop date.length with
  | [] => isDate date
  | c :: time =>
    if c = 'T' || c = 't' || c = ' ' then isDate date && isOffsetTime time else isTime s

/-- The value that a text without quotes is. -/
def bareValue? (s : List Char) : Option Value :=
  if s = "true".toList then some (.boolean true)
  else if s = "false".toList then some (.boolean false)
  else if (integer? s).any fitsWord then some (.integer (String.ofList s))
  else if isFloat s then some (.float (String.ofList s))
  else if isDateTime s then some (.dateTime (String.ofList s))
  else none

end DocWeave.Toml
