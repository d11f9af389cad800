import AtomicStyle.Color.Lightness
import AtomicStyle.Color.Reading
import AtomicStyle.Config.Basic
import AtomicStyle.NameMap
import AtomicStyle.Trace

/-!
# Palettes

Each colour of a palette generates a family of names: itself, a lighter and a darker variant, and
nine translucent ones. Where two colours generate the same name, the one declared later holds it.
-/

namespace AtomicStyle

inductive PaletteError where
  | invalidColor (name : String) (source : ColorError)
  /-- The text of a colour is one that no answer exists for. -/
  | splitCharacter

namespace Palette

/-- The opacities of the translucent variants, in percent. -/
def alphaSteps : List Nat := [10, 20, 30, 40, 50, 60, 70, 80, 90]

def translucent (name : String) (base : Color) : List (String × String) :=
  alphaSteps.map fun percent =>
    (name ++ "-" ++ Nat.repr percent, (base.withAlpha (Float.ofNat percent / 100)).rgba)

/-- The names that one colour generates, with their values. -/
def family (settings : ColorSettings) (name value : String) (base : Color) :
    List (String × String) :=
  (name, value) ::
    (settings.lighten.share?.toList.map fun r => ("light-" ++ name, (base.lighten r).hex)) ++
    (settings.darken.share?.toList.map fun r => ("dark-" ++ name, (base.darken r).hex)) ++
    translucent name base

/-- Adds the family of one colour to those of the colours before it. -/
def expandEntry (settings : ColorSettings) (expanded : NameMap String) (entry : String × String) :
    Run PaletteError (NameMap String) :=
  match Color.parse entry.2 with
  | .error (.rejected source) => .fail (.invalidColor entry.1 source)
  | .error .splitCharacter => .fail .splitCharacter
  | .ok base =>
    ⟨.ok (expanded.insertAll (family settings entry.1 entry.2 base)),
      (translucent entry.1 base).map fun variant => .variant variant.1 variant.2⟩

/-- Adds the families of some colours in order. -/
def expandFrom (settings : ColorSettings) :
    List (String × String) → NameMap String → Run PaletteError (NameMap String)
  | [], expanded => pure expanded
  | entry :: entries, expanded => do
    expandFrom settings entries (← expandEntry settings expanded entry)

end Palette

/-- All names that a palette generates, with their values. -/
def ColorSettings.expand (settings : ColorSettings) : Run PaletteError (NameMap String) :=
  Palette.expandFrom settings settings.palette.toList ∅

end AtomicStyle
