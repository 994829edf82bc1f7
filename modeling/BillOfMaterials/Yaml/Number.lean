import BillOfMaterials.Text.Hexadecimal

/-! # Numbers of plain scalars

    * `intOfText?` reads a whole number.
    * `decimal?` reads a number with a fraction, and `Decimal.units?` rounds it
      to the nearest number of binary64.
    * `floatKey?` writes a number with a fraction, so that two texts have the
      same number exactly if they have the same key. -/

namespace BillOfMaterials.Yaml

open Text (hexValue?)

/-! ## Whole numbers -/

/-- A sign and what follows it. -/
def splitSign : List Char → Option Char × List Char
  | '+' :: rest => (some '+', rest)
  | '-' :: rest => (some '-', rest)
  | cs => (none, cs)

/-- The number of digits in a base, if there are any and no others. -/
def natOfDigits? (base : Nat) (digits : List Char) : Option Nat := do
  if digits.isEmpty then none
  let values ← digits.mapM hexValue?
  if values.all (· < base) then return values.foldl (fun n value => n * base + value) 0 else none

/-- Decimal digits that begin with a zero are no number. -/
def isPadded (digits : List Char) : Bool :=
  1 < digits.length && digits.head? == some '0' && digits.all Char.isDigit

/-- A whole number: decimal digits, or those of another base after its sign. -/
def natOfText? : List Char → Option Nat
  | '0' :: 'x' :: digits => natOfDigits? 16 digits
  | '0' :: 'o' :: digits => natOfDigits? 8 digits
  | '0' :: 'b' :: digits => natOfDigits? 2 digits
  | digits => if isPadded digits then none else natOfDigits? 10 digits

def intOfText? (text : List Char) : Option Int :=
  match splitSign text with
  | (some '-', digits) => (natOfText? digits).map fun n => -n
  | (_, digits) => (natOfText? digits).map fun n => n

/-! ## Numbers with a fraction -/

/-- A number with a fraction: its digits, read as a whole number, and the power
    of ten to multiply them by. -/
structure Decimal where
  digits : List Char
  exponent : Int

/-- The value of an exponent's digits, if there are any and no others.  Past
    65536 further digits do not count. -/
def exponentOfDigits? (digits : List Char) : Option Nat := do
  if digits.isEmpty then none
  let values ← digits.mapM hexValue?
  if values.all (· < 10) then
    return values.foldl (fun n value => if n < 65536 then n * 10 + value else n) 0
  else none

/-- The exponent after a number's digits: nothing, or a letter and digits. -/
def exponent? : List Char → Option Int
  | [] => some 0
  | e :: rest =>
    if e = 'e' ∨ e = 'E' then
      match splitSign rest with
      | (some '-', digits) => (exponentOfDigits? digits).map fun n => -n
      | (_, digits) => (exponentOfDigits? digits).map fun n => n
    else none

/-- Digits with a point among them and an exponent. -/
def decimal? (text : List Char) : Option Decimal := do
  let whole := text.takeWhile Char.isDigit
  let rest := text.dropWhile Char.isDigit
  let (fraction, rest) := match rest with
    | '.' :: rest => (rest.takeWhile Char.isDigit, rest.dropWhile Char.isDigit)
    | rest => ([], rest)
  if whole.isEmpty && fraction.isEmpty then none
  let exponent ← exponent? rest
  return { digits := whole ++ fraction, exponent := exponent - fraction.length }

/-! ## Rounding -/

/-- A quotient rounded to the nearest whole number, a half to the even one. -/
def roundQuotient (n d : Nat) : Nat :=
  let q := n / d
  let r := n % d
  if 2 * r < d then q else if d < 2 * r then q + 1 else q + q % 2

/-- A quotient rounded to 53 binary digits. -/
def roundBinary (n d : Nat) : Nat :=
  let unit := Nat.pow 2 ((n / d).log2 - 52)
  roundQuotient n (d * unit) * unit

/-- A number as one of binary64, in units of its smallest one, which is two to
    the power of -1074.  What rounds to two to the power of 1024 is too large. -/
def Decimal.units? (d : Decimal) : Option Nat :=
  let digits := d.digits.dropWhile (· == '0')
  let magnitude := digits.length + d.exponent
  -- Far from the numbers of binary64 no power of ten is needed to tell.
  if digits.isEmpty || magnitude < -324 then some 0
  else if 309 < magnitude then none
  else
    let n := Nat.ofDigitChars 10 digits 0 * Nat.pow 2 1074
    let units := roundBinary (n * Nat.pow 10 d.exponent.toNat) (Nat.pow 10 (-d.exponent).toNat)
    if units < Nat.pow 2 2098 then some units else none

/-- The key of a number with a fraction, or of one that is infinite or none.
    Zero has no sign, and a number that is too large is no number. -/
def floatKey? (text : String) : Option String :=
  if [".nan", ".NaN", ".NAN"].contains text then some "nan"
  else
    let (sign?, rest) := splitSign text.toList
    let mark := if sign? == some '-' then "-" else ""
    if [".inf", ".Inf", ".INF"].contains (String.ofList rest) then some (mark ++ "inf")
    else do
      let units ← (← decimal? rest).units?
      return (if units = 0 then "" else mark) ++ toString units

end BillOfMaterials.Yaml
