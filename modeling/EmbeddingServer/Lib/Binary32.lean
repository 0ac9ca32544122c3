import Mathlib.Algebra.Ring.Nat
import Mathlib.Data.Nat.Sqrt

/-!
# Binary32 arithmetic

The basic operations of IEEE 754 binary32 on words, rounded to nearest with ties to even. A
finite word is an integer multiple of the smallest subnormal `2 ^ -149`, so its magnitude is a
natural number in that unit and every exact result is a quotient of natural numbers (for a
square root, one with a sticky bit below the last bit that rounding can see).

Every invalid operation gives the quiet NaN with an empty payload.
-/

namespace Binary32

/-- A binary32 word. -/
abbrev Word := BitVec 32

/-- The sign bit. -/
def negative (x : Word) : Bool := x.getMsbD 0

/-- The word without its sign bit. -/
def magnitude (x : Word) : Nat := (x.extractLsb 30 0).toNat

/-- The exponent field. -/
def exponent (x : Word) : Nat := magnitude x / 2 ^ 23

/-- The fraction field. -/
def fraction (x : Word) : Nat := magnitude x % 2 ^ 23

/-- The magnitude of infinity; larger magnitudes are NaNs. -/
def infinite : Nat := 255 * 2 ^ 23

/-- A word that is not a number. -/
def isNaN (x : Word) : Bool := infinite < magnitude x

/-- An infinity. -/
def isInfinite (x : Word) : Bool := magnitude x = infinite

/-- A finite word. -/
def isFinite (x : Word) : Bool := magnitude x < infinite

/-- A zero of either sign. -/
def isZero (x : Word) : Bool := magnitude x = 0

/-- The value of a finite word, without its sign, in units of the smallest subnormal. -/
def units (x : Word) : Nat :=
  if exponent x = 0 then fraction x else (2 ^ 23 + fraction x) * 2 ^ (exponent x - 1)

/-- A word from its sign and magnitude. -/
def ofMagnitude (negative : Bool) (magnitude : Nat) : Word :=
  BitVec.ofNat 32 ((if negative then 2 ^ 31 else 0) + magnitude)

/-- The quiet NaN. -/
def nan : Word := 0x7fc00000#32

/-- The word nearest to `numerator / denominator` units, ties to even, or an infinity. -/
def round (negative : Bool) (numerator denominator : Nat) : Word :=
  -- The quotient is scaled to at most 24 bits; the exponent field follows from the scale.
  let shift := (numerator / denominator).log2 - 23
  let scaled := denominator * 2 ^ shift
  let quotient := numerator / scaled
  let remainder := numerator % scaled
  let up := scaled < 2 * remainder || (scaled = 2 * remainder && quotient % 2 = 1)
  let nearest := if up then quotient + 1 else quotient
  ofMagnitude negative (min (shift * 2 ^ 23 + nearest) infinite)

/-- The value of a finite word with its sign, in units of the smallest subnormal. -/
def signedUnits (x : Word) : Int := if negative x then -(units x : Int) else units x

/-- Addition. -/
def add (x y : Word) : Word :=
  if isNaN x || isNaN y then nan
  else if isInfinite x then
    if isInfinite y && negative x != negative y then nan else x
  else if isInfinite y then y
  else
    let sum := signedUnits x + signedUnits y
    -- An exact zero is positive unless both operands are negative.
    if sum = 0 then ofMagnitude (negative x && negative y) 0
    else round (sum < 0) sum.natAbs 1

/-- Multiplication. -/
def mul (x y : Word) : Word :=
  let sign := negative x != negative y
  if isNaN x || isNaN y then nan
  else if isInfinite x || isInfinite y then
    if isZero x || isZero y then nan else ofMagnitude sign infinite
  else round sign (units x * units y) (2 ^ 149)

/-- Division. -/
def div (x y : Word) : Word :=
  let sign := negative x != negative y
  if isNaN x || isNaN y || (isInfinite x && isInfinite y) || (isZero x && isZero y) then nan
  else if isInfinite x || isZero y then ofMagnitude sign infinite
  else if isInfinite y then ofMagnitude sign 0
  else round sign (units x * 2 ^ 149) (units y)

/-- Square root. -/
def sqrt (x : Word) : Word :=
  if isNaN x || (negative x && !isZero x) then nan
  else if isZero x || isInfinite x then x
  else
    let square := units x * 2 ^ 149
    let root := square.sqrt
    -- The sticky bit stands for the digits below `root`, which has more bits than a word keeps.
    round false (2 * root + if root * root = square then 0 else 1) 2

/-- The order on numbers: both zeros are equal. -/
def le (x y : Word) : Bool :=
  let key := fun z : Word => if negative z then -(magnitude z : Int) else magnitude z
  !isNaN x && !isNaN y && key x ≤ key y

/-! Two thirds and the square root of two, correctly rounded; an overflow; a subnormal. -/

example : div 0x40000000#32 0x40400000#32 = 0x3f2aaaab#32 := by decide

example : sqrt 0x40000000#32 = 0x3fb504f3#32 := by decide +kernel

example : add 0x7f7fffff#32 0x7f7fffff#32 = 0x7f800000#32 := by decide

example : mul 0x00800000#32 0x3f000000#32 = 0x00400000#32 := by decide

end Binary32
