import AtomicStyle.Decimal.Basic
import AtomicStyle.Color.Basic

/-!
# Colour models

The models in which a colour may be given, and how each leads to the shares of red, green and blue.
All of it is computed in binary32, one operation at a time.
-/

namespace AtomicStyle.Color

structure Shares where
  red : Float32
  green : Float32
  blue : Float32

namespace Shares

def grey (x : Float32) : Shares := ⟨x, x, x⟩

def map (f : Float32 → Float32) (s : Shares) : Shares := ⟨f s.red, f s.green, f s.blue⟩

end Shares

/-- The remainder of `|x|` and a whole number, exact, with the sign of `x`. -/
def truncatedRemainder (x : Float32) (n : Nat) : Float32 :=
  match Parts.ofFloat32 x with
  | .finite sign mantissa exponent _ =>
    let (left, exponent) : Nat × Int :=
      match exponent with
      | .ofNat e => (mantissa * Nat.pow 2 e % n, 0)
      | .negSucc e => (mantissa % (n * Nat.pow 2 (e + 1)), .negSucc e)
    .ofModel (Float32.Model.pack (Float.Model.UnpackedFloat.round .binary32 sign left exponent))
  | .zero _ => x
  | _ => 0 / 0

/-- The remainder that is not negative. -/
def cycle (x : Float32) (n : Nat) : Float32 :=
  truncatedRemainder (truncatedRemainder x n + Float32.ofNat n) n

/-- An angle in degrees as one of the first turn. -/
def hue (angle : Float32) : Float32 := cycle angle 360

/-- The greater of two numbers, and of a number and no number the number. -/
def maxNumber (x y : Float32) : Float32 := if x.isNaN then y else if x < y then y else x

/-- The share of a channel at `h` sixths of a turn, between `low` and `high`. -/
def hslChannel (low high h : Float32) : Float32 :=
  let h := cycle h 6
  if h < 1 then low + (high - low) * h
  else if h < 3 then high
  else if h < 4 then low + (high - low) * (4 - h)
  else low

def ofHsl (h s l : Float32) : Shares :=
  if s == 0 then .grey l
  else
    let high := if l < 0.5 then l * (1 + s) else l + s - l * s
    let low := 2 * l - high
    let h := h / 60
    ⟨hslChannel low high (h + 2), hslChannel low high h, hslChannel low high (h - 2)⟩

/-- Hue in degrees, whiteness and blackness. -/
def ofHwb (h w b : Float32) : Shares :=
  if 1 ≤ w + b then .grey (w / (w + b))
  else (ofHsl h 1 0.5).map fun x => x * (1 - w - b) + w

/-- Hue in degrees, saturation and value. -/
def ofHsv (h s v : Float32) : Shares :=
  let l := (2 - s) * v / 2
  let s :=
    if l != 0 then
      if l == 1 then 0 else if l < 0.5 then s * v / (l * 2) else s * v / (2 - l * 2)
    else s
  ofHsl h s l

/-- The transfer curve from light to a channel's share. -/
def transfer (x : Float32) : Float32 :=
  if 0.0031308 ≤ x then 1.055 * x.pow (1 / 2.4) - 0.055 else 12.92 * x

def cube (x : Float32) : Float32 := x * x * x

/-- Perceived lightness and the two axes of the Oklab space. -/
def ofOklab (l a b : Float32) : Shares :=
  let long := cube (l + 0.3963377774 * a + 0.2158037573 * b)
  let medium := cube (l - 0.1055613458 * a - 0.0638541728 * b)
  let short := cube (l - 0.0894841775 * a - 1.2914855480 * b)
  Shares.map transfer
    ⟨4.0767416621 * long - 3.3077115913 * medium + 0.2309699292 * short,
      -1.2684380046 * long + 2.6097574011 * medium - 0.3413193965 * short,
      -0.0041960863 * long - 0.7034186147 * medium + 1.7076147010 * short⟩

/-- Perceived lightness, chroma and hue in radians. -/
def ofOklch (l c h : Float32) : Shares := ofOklab l (c * h.cos) (c * h.sin)

/-- The channel of eight bits nearest to a share. -/
def byteOf (x : Float32) : UInt8 := (x * 255 + 0.5).toUInt8

def ofShares (s : Shares) (alpha : Float32) : Color :=
  ⟨byteOf s.red, byteOf s.green, byteOf s.blue, Float.ofNat (byteOf alpha).toNat / 255⟩

end AtomicStyle.Color
