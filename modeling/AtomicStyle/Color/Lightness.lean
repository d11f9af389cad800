import AtomicStyle.Color.Basic

/-!
# Lighter and darker colours

A colour is made lighter or darker by a share of its own lightness. Hue, saturation and lightness
are rounded to whole degrees and percents first, so the result is that of a calculation with the
whole numbers a designer sees. The arithmetic is written once over any kind of number that has the
operations, so that the same formulas can be read over the rationals.
-/

namespace AtomicStyle

/-- Numbers in which lightness is computed. -/
class Shade (α : Type) extends Add α, Sub α, Mul α, Div α, LT α, BEq α where
  ofNat : Nat → α
  /-- The nearest whole number, a half going away from zero. -/
  round : α → α
  /-- The whole part, kept between 0 and 255. -/
  toByte : α → UInt8
  decidableLT : DecidableLT α

instance instDecidableLTOfShade {α : Type} [Shade α] : DecidableLT α := Shade.decidableLT

instance : Shade Float where
  ofNat := Float.ofNat
  round := roundHalfAway
  toByte := Float.toUInt8
  decidableLT := inferInstance

/-- A hue in degrees, and a saturation and a lightness in percent. -/
structure Hsl (α : Type) where
  hue : α
  saturation : α
  lightness : α

namespace Hsl

variable {α : Type} [Shade α]

def whole (n : Nat) : α := Shade.ofNat n

def larger (x y : α) : α := if x < y then y else x

def smaller (x y : α) : α := if y < x then y else x

/-- The share of the full range that a channel has. -/
def share (channel : UInt8) : α := whole channel.toNat / whole 255

/-- Saturation from the extremes of the three shares, where they differ. -/
def saturationOf (max min lightness : α) : α :=
  if whole 1 / whole 2 < lightness then (max - min) / (whole 2 - max - min)
  else (max - min) / (max + min)

/-- Hue in sixths of a turn, where the extremes of the three shares differ. -/
def sextant (r g b max min : α) : α :=
  if max == r then (g - b) / (max - min) + (if g < b then whole 6 else whole 0)
  else if max == g then (b - r) / (max - min) + whole 2
  else (r - g) / (max - min) + whole 4

/-- Hue, saturation and lightness of three shares, in whole degrees and percents. -/
def ofShares (r g b : α) : Hsl α :=
  let max := larger (larger r g) b
  let min := smaller (smaller r g) b
  let lightness := (max + min) / whole 2
  if max == min then ⟨whole 0, whole 0, Shade.round (lightness * whole 100)⟩
  else
    ⟨Shade.round (sextant r g b max min * whole 60),
      Shade.round (saturationOf max min lightness * whole 100),
      Shade.round (lightness * whole 100)⟩

def ofColor (c : Color) : Hsl α := ofShares (share c.red) (share c.green) (share c.blue)

/-- Brings a share of a turn back by one turn if it lies outside the first. -/
def wrap (t : α) : α :=
  if t < whole 0 then t + whole 1 else if whole 1 < t then t - whole 1 else t

/-- The share of a channel that lies `t` turns from the hue, between `p` and `q`. -/
def channelAt (p q t : α) : α :=
  let t := wrap t
  if t < whole 1 / whole 6 then p + (q - p) * whole 6 * t
  else if t < whole 1 / whole 2 then q
  else if t < whole 2 / whole 3 then p + (q - p) * (whole 2 / whole 3 - t) * whole 6
  else p

/-- The channel nearest to a share of the full range. -/
def toChannel (x : α) : UInt8 :=
  Shade.toByte (clamp (whole 0) (whole 255) (Shade.round (x * whole 255)))

/-- The greatest share of a channel at the given saturation and lightness. -/
def upper (saturation lightness : α) : α :=
  if lightness < whole 1 / whole 2 then lightness * (whole 1 + saturation)
  else lightness + saturation - lightness * saturation

/-- A percentage as a share of one, kept between zero and one. -/
def unit (percent : α) : α := clamp (whole 0) (whole 100) percent / whole 100

def channels (c : Hsl α) : UInt8 × UInt8 × UInt8 :=
  let lightness := unit c.lightness
  let saturation := unit c.saturation
  if saturation == whole 0 then
    let grey := toChannel lightness
    (grey, grey, grey)
  else
    let q := upper saturation lightness
    let p := whole 2 * lightness - q
    let h := c.hue / whole 360
    (toChannel (channelAt p q (h + whole 1 / whole 3)), toChannel (channelAt p q h),
      toChannel (channelAt p q (h - whole 1 / whole 3)))

/-- More lightness, by `ratio` of what there is. -/
def lighten (c : Hsl α) (ratio : α) : Hsl α :=
  { c with lightness := c.lightness + c.lightness * ratio }

/-- Less lightness, by `ratio` of what there is. -/
def darken (c : Hsl α) (ratio : α) : Hsl α :=
  { c with lightness := c.lightness - c.lightness * ratio }

end Hsl

namespace Color

def withChannels (c : Color) (channels : UInt8 × UInt8 × UInt8) : Color :=
  { c with red := channels.1, green := channels.2.1, blue := channels.2.2 }

/-- The colour with its lightness raised by `ratio` of itself. -/
def lighten (c : Color) (ratio : Float) : Color :=
  c.withChannels ((Hsl.ofColor c).lighten ratio).channels

/-- The colour with its lightness lowered by `ratio` of itself. -/
def darken (c : Color) (ratio : Float) : Color :=
  c.withChannels ((Hsl.ofColor c).darken ratio).channels

end Color

end AtomicStyle
