import AtomicStyle.Decimal.Layout

/-!
# Colours

A colour has three channels of eight bits and an opacity. It is written either as six hexadecimal
digits, which leave the opacity out, or with all four numbers.
-/

namespace AtomicStyle

/-- A colour of the sRGB space. -/
structure Color where
  red : UInt8
  green : UInt8
  blue : UInt8
  alpha : Float

/-- Keeps a number between two bounds; what compares with neither stays as it is. -/
def clamp {α : Type} [LT α] [DecidableLT α] (low high x : α) : α :=
  let x := if x < low then low else x
  if high < x then high else x

namespace Color

def opaqueOf (red green blue : UInt8) : Color := ⟨red, green, blue, 1⟩

/-- The opaque colour whose channels are the bytes of one number, red first. -/
def ofNat (n : Nat) : Color :=
  opaqueOf (UInt8.ofNat (n / 65536)) (UInt8.ofNat (n / 256)) (UInt8.ofNat n)

/-- The colour with another opacity, which is kept between zero and one. -/
def withAlpha (c : Color) (alpha : Float) : Color := { c with alpha := clamp 0 1 alpha }

/-- One hexadecimal digit, in upper case. -/
def hexDigit (n : Nat) : Char := if n < 10 then Char.ofNat (48 + n) else Char.ofNat (55 + n)

def hexByte (b : UInt8) : List Char := [hexDigit (b.toNat / 16), hexDigit (b.toNat % 16)]

/-- The form `#RRGGBB`. -/
def hexChars (c : Color) : List Char :=
  '#' :: (hexByte c.red ++ hexByte c.green ++ hexByte c.blue)

/-- The form `rgba(red, green, blue, alpha)`. -/
def rgbaChars (c : Color) : List Char :=
  let comma := [',', ' ']
  ['r', 'g', 'b', 'a', '('] ++ Decimal.digits c.red.toNat ++ comma ++
    Decimal.digits c.green.toNat ++ comma ++ Decimal.digits c.blue.toNat ++ comma ++
    Decimal.plain.chars c.alpha ++ [')']

def hex (c : Color) : String := String.ofList c.hexChars

def rgba (c : Color) : String := String.ofList c.rgbaChars

end Color

end AtomicStyle
