import BillOfMaterials.Calendar
import BillOfMaterials.Text.Hexadecimal

/-! # Scalars of TOML

    Truth values, numbers and dates stand without quotes, each as one word.

    * `isNumber` tells whether a word is a number.
    * `isDateTime` tells whether it is a date, a time of day, or both.
    * `isScalar` tells whether it is any of the three. -/

namespace BillOfMaterials.Toml

/-! ## Numbers -/

/-- What follows a sign, if there is one. -/
def dropSign : List Char → List Char
  | '+' :: rest => rest
  | '-' :: rest => rest
  | s => s

def isDigitOf (base : Nat) (c : Char) : Bool := (Text.hexValue? c).any (· < base)

/-- The base of the digits after a zero and a letter. -/
def base? : Char → Option Nat
  | 'x' => some 16
  | 'o' => some 8
  | 'b' => some 2
  | _ => none

/-- Whether each underscore stands between two digits.  `joins` is whether one
    may stand at the start. -/
def underscoresFit (isDigit : Char → Bool) (joins : Bool) : List Char → Bool
  | [] => true
  | '_' :: rest => joins && rest.head?.any isDigit && underscoresFit isDigit false rest
  | c :: rest => underscoresFit isDigit (isDigit c) rest

/-- Whether decimal digits begin a whole number.  What follows the first
    underscore need not be digits. -/
def isWhole (value : List Char) : Bool :=
  let rest := value.dropWhile Char.isDigit
  !value.isEmpty && (rest.isEmpty || rest.head? == some '_') &&
    !(1 < value.length && value.head? == some '0')

/-- What follows digits, of which there must be one. -/
def dropDigits? (s : List Char) : Option (List Char) :=
  let isPart (c : Char) := c.isDigit || c == '_'
  if (s.takeWhile isPart).any Char.isDigit then some (s.dropWhile isPart) else none

def dropFraction? : List Char → Option (List Char)
  | '.' :: rest => dropDigits? rest
  | s => some s

def dropExponent? : List Char → Option (List Char)
  | c :: rest => if c = 'e' ∨ c = 'E' then dropDigits? (dropSign rest) else some (c :: rest)
  | [] => some []

/-- Whether a value is digits with a fraction or an exponent after them.  A zero
    stands alone before the point. -/
def isFraction (value : List Char) : Bool :=
  let mantissa := value.takeWhile fun c => c.isDigit || c == '_'
  !(mantissa.head? == some '0' && 1 < mantissa.countP Char.isDigit) &&
    ((dropDigits? value).bind dropFraction? |>.bind dropExponent?) == some []

/-- Whether a word is a number in decimal digits.  An underscore may also stand
    right after its sign. -/
def isDecimal (word : List Char) : Bool :=
  let value := dropSign word
  let signed := value.length < word.length
  if (value.dropWhile Char.isDigit).any fun c => c == '.' || c == 'e' || c == 'E' then
    isFraction value && underscoresFit Char.isDigit signed value
  else isWhole value && underscoresFit (isDigitOf 16) signed value

/-- Whether a word is a number.  One in another base has no sign. -/
def isNumber : List Char → Bool
  | '0' :: letter :: digits =>
    match base? letter with
    | some base =>
      digits.all (fun c => isDigitOf base c || c == '_') &&
        underscoresFit (isDigitOf base) false digits
    | none => isDecimal ('0' :: letter :: digits)
  | word => isDecimal word

/-! ## Dates and times -/

/-- What follows a number of `count` digits, and the number, if it is in range. -/
def readField? (count least most : Nat) (s : List Char) : Option (Nat × List Char) :=
  let digits := s.take count
  let n := Nat.ofDigitChars 10 digits 0
  if digits.length = count ∧ digits.all Char.isDigit ∧ least ≤ n ∧ n ≤ most then
    some (n, s.drop count)
  else none

def expect? (c : Char) : List Char → Option (List Char)
  | [] => none
  | d :: rest => if d = c then some rest else none

/-- What follows a date `YYYY-MM-DD`. -/
def dropDate? (s : List Char) : Option (List Char) := do
  let (year, s) ← readField? 4 0 9999 s
  let (month, s) ← readField? 2 1 12 (← expect? '-' s)
  let (_, s) ← readField? 2 1 (Date.daysInMonth year month) (← expect? '-' s)
  return s

/-- What follows a time of day `hh:mm`, with seconds and a fraction of them if
    they are given. -/
def dropTime? (s : List Char) : Option (List Char) := do
  let (_, s) ← readField? 2 0 23 s
  let (_, s) ← readField? 2 0 59 (← expect? ':' s)
  match s with
  | ':' :: s =>
    let (_, s) ← readField? 2 0 60 s
    match s with
    | '.' :: s => if s.head?.any Char.isDigit then return s.dropWhile Char.isDigit else none
    | s => return s
  | s => return s

/-- What follows the distance from UTC: none, or hours and minutes. -/
def dropOffset? : List Char → Option (List Char)
  | [] => none
  | c :: s => do
    if c = 'Z' ∨ c = 'z' then return s
    if c ≠ '+' ∧ c ≠ '-' then none
    let (_, s) ← readField? 2 0 23 s
    let (_, s) ← readField? 2 0 59 (← expect? ':' s)
    return s

/-- The signs between a date and a time of day. -/
def separatesTime (c : Char) : Bool := c == 'T' || c == 't' || c == ' '

/-- Whether a word is a date, a time of day, or both.  Only both together may have
    a distance from UTC. -/
def isDateTime (word : List Char) : Bool :=
  match dropDate? word with
  | none => dropTime? word == some []
  | some [] => true
  | some (c :: s) =>
    separatesTime c &&
      match dropTime? s with
      | none => false
      | some [] => true
      | some s => dropOffset? s == some []

/-! ## Scalars -/

def isScalar (word : List Char) : Bool :=
  ["true", "false"].contains (String.ofList word) ||
    ["inf", "nan"].contains (String.ofList (dropSign word)) || isNumber word || isDateTime word

end BillOfMaterials.Toml
