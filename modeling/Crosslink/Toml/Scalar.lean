import Crosslink.Text.Basic

/-!
# Numbers and dates in TOML

Which bare words are numbers, dates or times. A configuration has no use
for the value of a number, so only its form and its size are checked. A
date or a time is brought into one form: a capital T in the middle, a
capital Z for the offset zero, at most nine digits after the point and no
zeros at their end.
-/

namespace Crosslink.Toml

/-! ## Numbers -/

/-- Digits with single underscores between them. -/
def isDigits (isDigit : Char → Bool) : List Char → Bool
  | [] => false
  | [c] => isDigit c
  | c :: '_' :: cs => isDigit c && isDigits isDigit cs
  | c :: cs => isDigit c && isDigits isDigit cs

/-- The word without a sign in front. -/
def unsigned : List Char → List Char
  | '+' :: cs => cs
  | '-' :: cs => cs
  | cs => cs

/-- Decimal digits without a superfluous zero in front. -/
def isDecimal (cs : List Char) : Bool :=
  isDigits Char.isDigit cs && (cs.length == 1 || cs.head? != some '0')

def isHexDigit (c : Char) : Bool :=
  c.isDigit || ('a' ≤ c && c ≤ 'f') || ('A' ≤ c && c ≤ 'F')

/-- The number that digits write in a base, underscores left out. -/
def digitsValue (base : Nat) (cs : List Char) : Nat :=
  cs.foldl (fun value c =>
    if c = '_' then value
    else if c.isDigit then base * value + (c.toNat - '0'.toNat)
    else base * value + (c.toLower.toNat - 'a'.toNat + 10)) 0

/-- The absolute value that no integer exceeds, and only negative ones
reach: they have to fit into 64 bits. -/
def integerLimit : Nat := 9223372036854775808

def isOctalDigit (c : Char) : Bool := '0' ≤ c && c ≤ '7'

def isBinaryDigit (c : Char) : Bool := c == '0' || c == '1'

/-- An integer that fits into 64 bits. -/
def isInteger : List Char → Bool
  | '0' :: 'x' :: cs =>
    isDigits isHexDigit cs && digitsValue 16 cs < integerLimit
  | '0' :: 'o' :: cs =>
    isDigits isOctalDigit cs && digitsValue 8 cs < integerLimit
  | '0' :: 'b' :: cs =>
    isDigits isBinaryDigit cs && digitsValue 2 cs < integerLimit
  | '-' :: cs => isDecimal cs && digitsValue 10 cs ≤ integerLimit
  | cs => isDecimal (unsigned cs) && digitsValue 10 (unsigned cs) < integerLimit

/-- An exponent, after its letter. -/
def isExponent (cs : List Char) : Bool :=
  isDigits Char.isDigit (unsigned cs)

/-- The part of a word before the first character satisfying `p`, and the
part after it if there is one. -/
def cutWhere (p : Char → Bool) (cs : List Char) :
    List Char × Option (List Char) :=
  (cs.takeWhile (!p ·), (cs.dropWhile (!p ·)).tail?)

/-- The number that an exponent writes, after its letter. -/
def exponentValue : List Char → Int
  | '-' :: cs => -digitsValue 10 cs
  | cs => digitsValue 10 (unsigned cs)

/-- The least number that is too large for a float of 64 bits: half a step
above the largest one. -/
def floatLimit : Nat := Nat.pow 2 1024 - Nat.pow 2 970

/-- Whether the number written by `digits`, times ten to the power
`exponent`, is too large for a float. Powers of ten decide as long as they
are far from the limit. -/
def isTooLarge (digits : List Char) (exponent : Int) : Bool :=
  let digits := digits.dropWhile (· = '0')
  let size := digits.length + exponent
  if digits.isEmpty || size < 300 then false
  else
    310 < size
      || floatLimit * Nat.pow 10 (-exponent).toNat
        ≤ digitsValue 10 digits * Nat.pow 10 exponent.toNat

/-- A decimal fraction, an exponent form, infinity or not a number. A
number without a minus may not be too large. -/
def isFloat (word : List Char) : Bool :=
  let cs := unsigned word
  if cs = ['i', 'n', 'f'] ∨ cs = ['n', 'a', 'n'] then true
  else
    let (mantissa, exponent) := cutWhere (fun c => c == 'e' || c == 'E') cs
    let (whole, fraction) := cutWhere (· == '.') mantissa
    let decimals := (fraction.getD []).filter (· ≠ '_')
    isDecimal whole && fraction.all (isDigits Char.isDigit)
      && exponent.all isExponent
      && (fraction.isSome || exponent.isSome)
      && (word.head? == some '-'
        || !isTooLarge (whole.filter (· ≠ '_') ++ decimals)
          (exponentValue (exponent.getD []) - decimals.length))

/-! ## Dates and times -/

/-- The number written by exactly `count` digits. -/
def fixedNumber? (count : Nat) (cs : List Char) : Option Nat :=
  if cs.length = count ∧ cs.all Char.isDigit then some (digitsValue 10 cs)
  else none

def daysIn (year month : Nat) : Nat :=
  if month = 2 then
    if year % 4 = 0 ∧ (year % 100 ≠ 0 ∨ year % 400 = 0) then 29 else 28
  else if month ∈ [4, 6, 9, 11] then 30
  else 31

def date? (cs : List Char) : Option (List Char) :=
  match fixedNumber? 4 (cs.take 4), fixedNumber? 2 ((cs.drop 5).take 2),
      fixedNumber? 2 (cs.drop 8) with
  | some year, some month, some day =>
    if cs[4]? = some '-' ∧ cs[7]? = some '-' ∧ 1 ≤ month ∧ month ≤ 12
        ∧ 1 ≤ day ∧ day ≤ daysIn year month then
      some cs
    else none
  | _, _, _ => none

def isHourMinute (cs : List Char) : Bool :=
  match fixedNumber? 2 (cs.take 2), fixedNumber? 2 (cs.drop 3) with
  | some hour, some minute => cs[2]? == some ':' && hour < 24 && minute < 60
  | _, _ => false

/-- The fraction of a second with its point. -/
def secondFraction (digits : List Char) : List Char :=
  match Text.dropEndWhile (· = '0') (digits.take 9) with
  | [] => []
  | digits => '.' :: digits

def time? (cs : List Char) : Option (List Char) :=
  let (clock, fraction) := cutWhere (· == '.') cs
  match fixedNumber? 2 (clock.drop 6) with
  | some second =>
    if isHourMinute (clock.take 5) && clock[5]? == some ':' && second ≤ 60
        && fraction.all fun digits =>
          !digits.isEmpty && digits.all Char.isDigit then
      some (clock ++ secondFraction (fraction.getD []))
    else none
  | none => none

/-- An offset in hours and minutes; the offset zero has a plus. -/
def offset? : List Char → Option (List Char)
  | sign :: cs =>
    if isHourMinute cs then
      some ((if cs = "00:00".toList then '+' else sign) :: cs)
    else none
  | [] => none

def timeWithOffset? (cs : List Char) : Option (List Char) :=
  let isSign := fun c : Char => c == '+' || c == '-'
  let rest := cs.dropWhile (!isSign ·)
  if rest ≠ [] then do
    return (← time? (cs.takeWhile (!isSign ·))) ++ (← offset? rest)
  else if cs.getLast? = some 'Z' ∨ cs.getLast? = some 'z' then
    (time? cs.dropLast).map (· ++ ['Z'])
  else time? cs

def dateTime? (cs : List Char) : Option (List Char) :=
  if cs[10]? = some 'T' ∨ cs[10]? = some 't' ∨ cs[10]? = some ' ' then do
    return (← date? (cs.take 10)) ++ 'T' :: (← timeWithOffset? (cs.drop 11))
  else none

/-- A date, a time, or both. -/
def moment? (cs : List Char) : Option (List Char) :=
  (date? cs).or ((time? cs).or (dateTime? cs))

def isNumber (cs : List Char) : Bool := isInteger cs || isFloat cs

end Crosslink.Toml
