import AtomicStyle.Vocabulary.Basic

/-!
# The scaled tables

Lengths as multiples of the base unit: extents, spacing, type sizes and radii.
-/

namespace AtomicStyle.Vocabulary

/-- Extents double with each step. -/
private def extents : List Float := [1, 2, 4, 8, 16]

def heights : Table Float := ladder "h" "height" 1 extents

def minHeights : Table Float := ladder "min-h" "minHeight" 1 extents

def maxHeights : Table Float := ladder "max-h" "maxHeight" 1 extents

def widths : Table Float := ladder "w" "width" 1 extents

def minWidths : Table Float := ladder "min-w" "minWidth" 1 extents

def maxWidths : Table Float := ladder "max-w" "maxWidth" 1 extents

/-- The sides that spacing is given for, with their letters. -/
private def sides : List (String × String) :=
  [("a", ""), ("l", "Left"), ("r", "Right"), ("t", "Top"), ("b", "Bottom"), ("v", "Vertical"),
    ("h", "Horizontal")]

/-- The steps of spacing after the step without any. -/
private def gaps : List Float := [0.25, 0.5, 1, 2, 4, 8, 16]

/-- Padding, margin, and margin the other way. -/
def spacing : Table Float :=
  (sides.flatMap fun side => ladder ("p" ++ side.1) ("padding" ++ side.2) 0 (0 :: gaps)) ++
  (sides.flatMap fun side => ladder ("m" ++ side.1) ("margin" ++ side.2) 0 (0 :: gaps)) ++
  sides.flatMap fun side => ladder ("n" ++ side.1) ("margin" ++ side.2) 1 (gaps.map (-·))

def typeScale : Table Float :=
  [⟨"f-headline", [("fontSize", 6)]⟩, ⟨"f-subheadline", [("fontSize", 5)]⟩] ++
  ladder "f" "fontSize" 1 [3, 2.25, 1.5, 1.25, 1, 0.875]

/-- A group that squares off two corners. -/
private def squared (name first second : String) : Group Float :=
  ⟨name, [("border" ++ first ++ "Radius", 0), ("border" ++ second ++ "Radius", 0)]⟩

/-- Radii of rounded corners, and sides without them. -/
def radii : Table Float :=
  ladder "br" "borderRadius" 0 [0, 0.125, 0.25, 0.5, 1, 2] ++
  [squared "br--top" "BottomLeft" "BottomRight", squared "br--right" "TopLeft" "BottomLeft",
    squared "br--bottom" "TopLeft" "TopRight", squared "br--left" "TopRight" "BottomRight"]

end AtomicStyle.Vocabulary
