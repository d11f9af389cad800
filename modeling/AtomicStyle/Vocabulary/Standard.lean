import AtomicStyle.Vocabulary.Fixed
import AtomicStyle.Vocabulary.Scaled

/-!
# The standard vocabulary

The built-in tables in the order in which they are merged.
-/

namespace AtomicStyle.Vocabulary

def standard : Vocabulary where
  fixed := [borders, flexibleBoxes, fontWeights, images, text, opacity, placement]
  scaled :=
    [heights, minHeights, maxHeights, widths, minWidths, maxWidths, spacing, typeScale, radii]

end AtomicStyle.Vocabulary
