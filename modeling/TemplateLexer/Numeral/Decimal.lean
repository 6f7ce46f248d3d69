/-! Decimal fractions and the one form in which they are written here: digits, and behind a point
the digits of the fraction. There is no sign and no exponent. -/
namespace TemplateLexer

/-- Stands for the coefficient with its point moved `places` digits to the left. -/
structure Decimal where
  coefficient : Nat
  places : Nat
  deriving DecidableEq, Repr

namespace Decimal

def tenTo (n : Nat) : Nat := Nat.pow 10 n

def ofDigits (whole fraction : List Char) : Decimal :=
  ⟨Nat.ofDigitChars 10 (whole ++ fraction) 0, fraction.length⟩

/-- Reads `[0-9]+(\.[0-9]*)?` and nothing else. -/
def ofText? (text : List Char) : Option Decimal :=
  let whole := text.takeWhile Char.isDigit
  if whole.isEmpty then none
  else
    match text.dropWhile Char.isDigit with
    | [] => some (ofDigits whole [])
    | '.' :: fraction => if fraction.all Char.isDigit then some (ofDigits whole fraction) else none
    | _ => none

def digits (d : Decimal) : List Char :=
  (Nat.toDigits 10 d.coefficient).leftpad (d.places + 1) '0'

/-- All places are written, zeros too, and no point where there are no places. -/
def text (d : Decimal) : List Char :=
  if d.places = 0 then d.digits
  else
    let split := d.digits.length - d.places
    d.digits.take split ++ '.' :: d.digits.drop split

end Decimal

end TemplateLexer
