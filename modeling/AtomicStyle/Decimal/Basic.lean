/-!
# Decimals and the parts of a floating-point number

A decimal is a natural number times a power of ten. A finite floating-point number is a sign and a
natural number times a power of two; the parts are read off with core's own model of the binary64
format, so that what is said here of the parts can be joined to what core says of the operations.
-/

namespace AtomicStyle

/-- The number `coefficient * 10 ^ exponent`. -/
structure Decimal where
  coefficient : Nat
  exponent : Int
deriving DecidableEq, Repr

namespace Decimal

/-- The digit that a character stands for; only the ten ASCII digits are asked for. -/
def digitValue (c : Char) : Nat := c.toNat - '0'.toNat

def ofDigits (digits : List Char) : Nat :=
  digits.foldl (fun n c => 10 * n + digitValue c) 0

/-- The binary64 number nearest to the decimal, a half going to the even neighbour. -/
def toFloat (d : Decimal) : Float :=
  match d.exponent with
  | .ofNat e => Float.ofScientific d.coefficient false e
  | .negSucc e => Float.ofScientific d.coefficient true (e + 1)

/-- The binary32 number nearest to the decimal, a half going to the even neighbour. -/
def toFloat32 (d : Decimal) : Float32 :=
  match d.exponent with
  | .ofNat e => Float32.ofScientific d.coefficient false e
  | .negSucc e => Float32.ofScientific d.coefficient true (e + 1)

end Decimal

/-- A number taken apart: its sign, mantissa and exponent, or which special value it is. -/
abbrev Parts := Float.Model.UnpackedFloat

def Parts.ofFloat (x : Float) : Parts :=
  Float.Model.UnpackedFloat.unpack .binary64 x.toBits.toBitVec

def Parts.ofFloat32 (x : Float32) : Parts :=
  Float.Model.UnpackedFloat.unpack .binary32 x.toBits.toBitVec

def Parts.isNegative : Float.Model.UnpackedFloat.Sign → Bool
  | .positive => false
  | .negative => true

/-- The natural number nearest to `mantissa / 2 ^ places`, a half going up. -/
def roundShift (mantissa places : Nat) : Nat :=
  (2 * mantissa + Nat.pow 2 places) / Nat.pow 2 (places + 1)

/-- The whole number nearest to `x`, a half going away from zero; the sign of `x` is kept also when
the result is zero. -/
def roundHalfAway (x : Float) : Float :=
  match Parts.ofFloat x with
  | .finite sign mantissa (.negSucc e) _ =>
    let whole := Float.ofNat (roundShift mantissa (e + 1))
    if Parts.isNegative sign then -whole else whole
  | _ => x

end AtomicStyle
