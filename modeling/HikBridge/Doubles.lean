import HikBridge.Http.ReadHttpRequest
import HikBridge.Numbers

/-!
This module contains `std::stod`: which start of a text it takes for a number, in which notation, and
the `double` that it makes of it. The byte that separates the decimals is that of the locale.
-/

namespace HikBridge

namespace Bytes

def mantissa (base : Nat) (isDigit : UInt8 → Bool) (point : UInt8) (text : Bytes)
    : Option (Nat × Nat × Bytes) :=
  let whole := text.takeWhile isDigit
  let rest := text.dropWhile isDigit
  let (fraction, rest) :=
    match rest with
    | [] => ([], [])
    | c :: more => if c = point then (more.takeWhile isDigit, more.dropWhile isDigit) else ([], rest)
  if whole = [] ∧ fraction = [] then
    none
  else
    (Numeral.value base 0 (whole ++ fraction)).map fun value => (value, fraction.length, rest)

def exponent (mark : UInt8) (text : Bytes) : Int :=
  match text with
  | [] => 0
  | c :: more =>
    if toLower c = mark then
      let (negative, rest) := sign more
      match Numeral.value 10 0 (rest.takeWhile Numeral.isDecimal) with
      | none => 0
      | some value => if negative then -value else value
    else
      0

def isHexadecimal (c : UInt8) : Bool := (Numeral.digitVal c).isSome

def inRange (value : Nat) (number : Float.Model) : Option Float.Model :=
  if number.isInf ∨ value ≠ 0 ∧ number.abs.toBits < 0x10000000000000 then none else some number

-- `0x`, hexadecimal digits and a binary exponent
def hexadecimal (point : UInt8) (text : Bytes) : Option (Option Float.Model) :=
  match text with
  | 48 :: x :: rest =>
    if toLower x = 120 then
      (mantissa 16 isHexadecimal point rest).map fun (value, places, rest) =>
        inRange value (.pack (.round .binary64 .positive value (exponent 112 rest - 4 * places)))
    else
      none
  | _ => none

def decimal (point : UInt8) (text : Bytes) : Option (Option Float.Model) :=
  (mantissa 10 Numeral.isDecimal point text).map fun (value, places, rest) =>
    inRange value (.ofScientific value (exponent 101 rest - places))

def infinity : Float.Model := .ofBits 0x7FF0000000000000

def nan : Float.Model := .ofBits 0x7FF8000000000000

/--
`std::stod`, where `none` stands for an exception.
-/
def stod (point : UInt8) (text : Bytes) : Option Float.Model :=
  let (negative, text) := sign (text.dropWhile isSpace)
  let number :=
    if (text.take 3).map toLower = lit "inf" then
      some infinity
    else if (text.take 3).map toLower = lit "nan" then
      some nan
    else
      ((hexadecimal point text).or (decimal point text)).join
  number.map fun number => if negative then -number else number

end Bytes

end HikBridge
