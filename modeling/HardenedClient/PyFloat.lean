import HardenedClient.PyStr
import Mathlib.Data.Rat.Defs
import Mathlib.Algebra.Order.Ring.Rat

/-!
# Python floats

Finite floats are exact rationals, beside the two infinities and nan. The
comparisons, `max` and `min` follow Python: every comparison with nan is false,
and `max`/`min` keep their first argument unless the second one is strictly
better. Multiplying by an integer first converts it to a float, which raises
OverflowError from `2 ** 1024` on.
-/

namespace HardenedClient

/-- A Python `float`; finite values are taken exactly. -/
inductive PyFloat
  | finite (value : ℚ)
  | posInf
  | negInf
  | nan
  deriving DecidableEq

namespace PyFloat

/-- The Python comparison `x < y`. -/
def lt : PyFloat → PyFloat → Bool
  | .finite x, .finite y => decide (x < y)
  | .finite _, .posInf => true
  | .negInf, .finite _ => true
  | .negInf, .posInf => true
  | _, _ => false

/-- The builtin `max(x, y)`. -/
def pyMax (x y : PyFloat) : PyFloat := if x.lt y then y else x

/-- The builtin `min(x, y)`. -/
def pyMin (x y : PyFloat) : PyFloat := if y.lt x then y else x

/-- Python float addition. -/
def add : PyFloat → PyFloat → PyFloat
  | .finite x, .finite y => .finite (x + y)
  | .nan, _ => .nan
  | _, .nan => .nan
  | .posInf, .negInf => .nan
  | .negInf, .posInf => .nan
  | .posInf, _ => .posInf
  | _, .posInf => .posInf
  | .negInf, _ => .negInf
  | _, .negInf => .negInf

/-- First exponent whose power of two no longer fits a float. -/
def overflowExponent : ℕ := 1024

/-- The product `x * (2 ** exponent)` of a float and an integer power of two.
`none` is the OverflowError of the conversion, which is raised before the
product is formed and hence for every `x`. -/
def mulPowTwo? (x : PyFloat) (exponent : ℕ) : Option PyFloat :=
  if exponent < overflowExponent then
    match x with
    | .finite value => some (.finite (value * 2 ^ exponent))
    | other => some other
  else none

@[simp] theorem mulPowTwo?_eq_none_iff
    (x : PyFloat)
    (exponent : ℕ) :
    x.mulPowTwo? exponent = none ↔ overflowExponent ≤ exponent := by
  unfold mulPowTwo?
  split
  · cases x <;> simp <;> omega
  · simp
    omega

/-- The product `target * draw` for a draw in `[0, 1)`, as formed by
`random.uniform(0.0, target)`. -/
def uniformFromZero (target : PyFloat) (draw : ℚ) : PyFloat :=
  match target with
  | .finite value => .finite (value * draw)
  | .posInf => if draw = 0 then .nan else .posInf
  | .negInf => if draw = 0 then .nan else .negInf
  | .nan => .nan

/-! ## Reading a float from text -/

/-- A run of decimal digits in which single underscores may separate digits:
its value, its number of digits and the remaining text. -/
def digitPart (value count : ℕ) : PyStr → ℕ × ℕ × PyStr
  | [] => (value, count, [])
  | point :: rest =>
      match digit? point with
      | some digit => digitPart (10 * value + digit) (count + 1) rest
      | none =>
          if spells point '_' && decide (0 < count) && (rest.head?.bind digit?).isSome then
            digitPart value count rest
          else (value, count, point :: rest)

/-- The value of a sign character and the text after it. -/
def signPart : PyStr → Bool × PyStr
  | [] => (false, [])
  | point :: rest =>
      if spells point '-' then (true, rest)
      else if spells point '+' then (false, rest)
      else (false, point :: rest)

/-- The exponent part `e[sign]digits`, when the text starts with one. -/
def exponentPart : PyStr → Option (ℤ × PyStr)
  | [] => some (0, [])
  | point :: rest =>
      if spells point 'e' || spells point 'E' then
        let (negative, unsigned) := signPart rest
        let (value, count, remaining) := digitPart 0 0 unsigned
        if count = 0 then none
        else some (if negative then -(value : ℤ) else value, remaining)
      else some (0, point :: rest)

/-- The digits after a decimal point, beside those before it: the number they
make together, how many there are, and how many of them come after the point. -/
def fractionPart (whole wholeCount : ℕ) : PyStr → ℕ × ℕ × ℕ × PyStr
  | [] => (whole, wholeCount, 0, [])
  | point :: rest =>
      if spells point '.' then
        let (value, count, remaining) := digitPart 0 0 rest
        (whole * 10 ^ count + value, wholeCount + count, count, remaining)
      else (whole, wholeCount, 0, point :: rest)

/-- An unsigned decimal number with optional fraction and exponent. -/
def unsignedNumber? (text : PyStr) : Option ℚ :=
  let (whole, wholeCount, afterWhole) := digitPart 0 0 text
  let (mantissa, digits, fractionDigits, afterFraction) := fractionPart whole wholeCount afterWhole
  if digits = 0 then none
  else
    match exponentPart afterFraction with
    | some (exponent, []) =>
        some ((mantissa : ℚ) * (10 : ℚ) ^ (exponent - (fractionDigits : ℤ)))
    | _ => none

/-- Least magnitude that is rounded to infinity. -/
def overflowBound : ℚ := 2 ^ 1024 - 2 ^ 970

/-- Greatest magnitude that is rounded to zero. -/
def underflowBound : ℚ := 1 / 2 ^ 1075

/-- A finite magnitude as a float: infinite when it is too large, zero when it
is too small. -/
def ofMagnitude (magnitude : ℚ) : PyFloat :=
  if overflowBound ≤ magnitude then .posInf
  else if magnitude ≤ underflowBound then .finite 0
  else .finite magnitude

/-- Python's unary minus on floats. -/
def neg : PyFloat → PyFloat
  | .finite value => .finite (-value)
  | .posInf => .negInf
  | .negInf => .posInf
  | .nan => .nan

/-- The constructor `float(text)` on text without surrounding blanks. `none` is
the ValueError. -/
def ofText? (text : PyStr) : Option PyFloat :=
  let (negative, unsigned) := signPart text
  let lowered := unsigned.map lowerAscii
  let magnitude :=
    if lowered = PyStr.ofString "inf" ∨ lowered = PyStr.ofString "infinity" then some .posInf
    else if lowered = PyStr.ofString "nan" then some .nan
    else (unsignedNumber? unsigned).map ofMagnitude
  magnitude.map fun value => if negative then value.neg else value

end PyFloat

end HardenedClient
