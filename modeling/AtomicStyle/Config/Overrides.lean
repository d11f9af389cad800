import AtomicStyle.Config.Basic

/-!
# Overrides

What a caller sets of a configuration, the rest coming from another one. A palette or a list of
fonts that is set comes first, followed by the entries of the other that it does not name.
-/

namespace AtomicStyle

/-- Colour settings of which any may be left out. -/
structure ColorOverrides where
  lighten : Option Adjustment := none
  darken : Option Adjustment := none
  palette : Option Declarations := none

/-- Settings of which any may be left out. -/
structure Overrides where
  rem : Option Float := none
  colors : Option ColorOverrides := none
  fonts : Option Declarations := none

/-- The declarations that are set, then those of `others` that they do not name. -/
def Declarations.override (set : Option Declarations) (others : Declarations) : Declarations :=
  (set.getD ∅).orElse others

def ColorOverrides.onto (o : ColorOverrides) (c : ColorSettings) : ColorSettings where
  lighten := o.lighten.getD c.lighten
  darken := o.darken.getD c.darken
  palette := Declarations.override o.palette c.palette

namespace Overrides

def onto (o : Overrides) (c : Config) : Config where
  rem := o.rem.getD c.rem
  colors := (o.colors.getD {}).onto c.colors
  fonts := Declarations.override o.fonts c.fonts

/-- The configuration with everything that is left out as in `Config.new`. -/
def toConfig (o : Overrides) : Config := o.onto Config.new

end Overrides

end AtomicStyle
