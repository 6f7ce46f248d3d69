import TemplateLexer.Numeral.Decimal

/-! Binary64 numbers by their bits: the sign, and the other 63 bits read as one number, the
magnitude. Magnitudes are ordered as the values they stand for, so that rounding, comparing and
stepping from a number to its neighbour are arithmetic on magnitudes. -/
namespace TemplateLexer

/-- The weight of the sign bit, and the number of magnitudes. -/
def signBit : Nat := 0x8000000000000000

structure Binary64 where
  negative : Bool
  magnitude : Nat
  magnitude_lt : magnitude < signBit
  deriving DecidableEq, Repr

namespace Binary64

/-- The weight of the lowest exponent bit, and of the significand's leading bit, which is not
written: the 52 bits below it are. -/
def leadingBit : Nat := 0x10000000000000

/-- The magnitude of infinity. Those above it are no numbers. -/
def infinity : Nat := 0x7FF0000000000000

def ofBits (bits : UInt64) : Binary64 where
  negative := decide (signBit ≤ bits.toNat)
  magnitude := bits.toNat % signBit
  magnitude_lt := Nat.mod_lt _ (by decide)

def bits (x : Binary64) : UInt64 :=
  .ofNat (x.magnitude + if x.negative then signBit else 0)

def isNaN (x : Binary64) : Bool := decide (infinity < x.magnitude)

def isInfinite (x : Binary64) : Bool := x.magnitude == infinity

/-- The least positive number is one half to the power of this. -/
def leastExponent : Nat := 1074

/-- The value of a finite magnitude, counted in least positive numbers. -/
def units (magnitude : Nat) : Nat :=
  if magnitude < leadingBit then magnitude
  else (leadingBit + magnitude % leadingBit) <<< (magnitude / leadingBit - 1)

/-- The whole number nearest to `num / den`; of two equally near ones the even one. -/
def roundHalfEven (num den : Nat) : Nat :=
  let below := num / den
  let doubled := 2 * (num % den)
  if doubled < den ∨ doubled = den ∧ below % 2 = 0 then below else below + 1

/-- The magnitude nearest to `num / den` units. A significand has 53 bits, fewer only below the
least scale; one that rounds up to the next power of two carries into the exponent, and from the
highest exponent into infinity. -/
def nearest (num den : Nat) : Nat :=
  let scale := (num / den).log2 - 52
  min (scale * leadingBit + roundHalfEven num (den <<< scale)) infinity

def magnitudeOfDecimal (d : Decimal) : Nat :=
  nearest (d.coefficient <<< leastExponent) (Decimal.tenTo d.places)

theorem magnitudeOfDecimal_le (d : Decimal) : magnitudeOfDecimal d ≤ infinity :=
  Nat.min_le_right ..

def ofDecimal (d : Decimal) : Binary64 where
  negative := false
  magnitude := magnitudeOfDecimal d
  magnitude_lt := Nat.lt_of_le_of_lt (magnitudeOfDecimal_le d) (by decide)

/-- Ordered as the number is; both zeros have the same key. -/
def key (x : Binary64) : Int := if x.negative then -x.magnitude else x.magnitude

/-- Has no answer where one of the two is no number. -/
def compare? (x y : Binary64) : Option Ordering :=
  if x.isNaN || y.isNaN then none else some (compare x.key y.key)

/-- Whether two numbers are equal as values. What is no number equals nothing. -/
def valueEq (x y : Binary64) : Bool := x.compare? y == some .eq

end Binary64

end TemplateLexer
