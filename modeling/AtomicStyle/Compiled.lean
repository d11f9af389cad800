import AtomicStyle.Palette
import AtomicStyle.Sheet
import AtomicStyle.Spelling
import AtomicStyle.Vocabulary.Standard

/-!
# Compilation

A configuration and a vocabulary determine three maps: the sizes of the scaled groups, the colours
that the palette generates, and the sheet. Each of them holds its hyphenated names in both
spellings.
-/

namespace AtomicStyle

structure Compiled where
  sizes : NameMap Float
  colors : NameMap String
  sheet : Sheet

namespace Compiled

/-- The sheet that a configuration and its generated colours fill, before names are respelled. -/
def layers (config : Config) (vocabulary : Vocabulary) (colors : NameMap String) : Sheet :=
  let scaled := Sheet.addScaled (Sheet.addFixed ∅ vocabulary.fixed) vocabulary.scaled config.rem
  (scaled.addColors colors).addFonts config.fonts

end Compiled

/-- Compiles a configuration with a vocabulary of one's own. -/
def Config.compileWith (config : Config) (vocabulary : Vocabulary) :
    Run PaletteError Compiled := do
  Run.leave (if 0 < config.rem then [] else [.unitNotPositive config.rem])
  let sizes := Sheet.scaledSizes vocabulary.scaled config.rem
  Run.leave [.sized sizes.size config.rem]
  let colors ← config.colors.expand
  let sheet := Compiled.layers config vocabulary colors
  return ⟨← sizes.respell, ← colors.respell, ← sheet.respell⟩

/-- Compiles a configuration with the standard vocabulary. -/
def Config.compile (config : Config) : Run PaletteError Compiled :=
  config.compileWith Vocabulary.standard

end AtomicStyle
