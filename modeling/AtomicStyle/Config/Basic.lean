import AtomicStyle.Declarations

/-!
# Configurations

A configuration is a base unit, a palette with the shares by which its colours are made lighter and
darker, and fonts. `Config.new` is the one to start from; each builder function changes one setting.
-/

namespace AtomicStyle

/-- Whether a lighter or darker variant is made, and by which share. -/
inductive Adjustment where
  | ratio (share : Float)
  | disabled

/-- The share of an adjustment that is made. -/
def Adjustment.share? : Adjustment → Option Float
  | ratio share => some share
  | disabled => none

structure ColorSettings where
  lighten : Adjustment
  darken : Adjustment
  palette : Declarations

structure Config where
  /-- The unit that scaled values are multiples of. -/
  rem : Float
  colors : ColorSettings
  fonts : Declarations

namespace ColorSettings

/-- White and black, with a fifth of lightness more and less. -/
def standard : ColorSettings where
  lighten := .ratio 0.2
  darken := .ratio 0.2
  palette := .ofList [("white", "#ffffff"), ("black", "#000000")]

end ColorSettings

namespace Config

/-- The configuration to start from: a unit of sixteen, white and black, and no fonts. -/
def new : Config := ⟨16, .standard, ∅⟩

def setRem (c : Config) (rem : Float) : Config := { c with rem }

def setLighten (c : Config) (lighten : Adjustment) : Config :=
  { c with colors := { c.colors with lighten } }

def setDarken (c : Config) (darken : Adjustment) : Config :=
  { c with colors := { c.colors with darken } }

/-- Adds a colour to the palette, or gives one another value. -/
def color (c : Config) (name value : String) : Config :=
  { c with colors := { c.colors with palette := c.colors.palette.insert name value } }

/-- Adds a font, or gives one another family. -/
def font (c : Config) (name family : String) : Config :=
  { c with fonts := c.fonts.insert name family }

end Config

end AtomicStyle
