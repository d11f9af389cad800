import AtomicStyle.Vocabulary.Basic

/-!
# The fixed tables

Borders, flexible boxes, font weights, images, text, opacity, and position and display.
-/

namespace AtomicStyle.Vocabulary

/-- A border on one side, or on all. -/
private def border (name side : String) : Group RuleValue :=
  ⟨name, [("borderStyle", .text "solid"), ("border" ++ side ++ "Width", .number 1)]⟩

def borders : Table RuleValue :=
  [border "ba" "", border "bt" "Top", border "br" "Right", border "bb" "Bottom",
    border "bl" "Left"] ++
  numbers "borderWidth" [("bn", 0)] ++
  texts "borderStyle" [("b--dotted", "dotted"), ("b--dashed", "dashed"), ("b--solid", "solid")] ++
  numbers "borderWidth"
    [("bw0", 0), ("bw1", 1), ("bw2", 2), ("bw3", 4), ("bw4", 8), ("bw5", 16)]

/-- Flexible boxes: growth, direction, wrapping and alignment. -/
def flexibleBoxes : Table RuleValue :=
  numbers "flex" [("flx-i", 1)] ++
  numbers "flexGrow" [("flx-grow", 1)] ++
  numbers "flexShrink" [("flx-shrink", 1)] ++
  texts "flexDirection"
    [("flx-row", "row"), ("flx-row-reverse", "row-reverse"),
      ("flx-col-reverse", "column-reverse")] ++
  texts "flexWrap" [("flx-wrap", "wrap"), ("flx-nowrap", "nowrap")] ++
  texts "alignItems"
    [("aifs", "flex-start"), ("aife", "flex-end"), ("aic", "center"), ("aib", "baseline"),
      ("ais", "stretch")] ++
  texts "alignSelf"
    [("asfs", "flex-start"), ("asfe", "flex-end"), ("asc", "center"), ("asb", "baseline"),
      ("ass", "stretch")] ++
  texts "justifyContent"
    [("jcfs", "flex-start"), ("jcfe", "flex-end"), ("jcc", "center"), ("jcsb", "space-between"),
      ("jcsa", "space-around")] ++
  texts "alignContent"
    [("acfs", "flex-start"), ("acfe", "flex-end"), ("acc", "center"), ("acsb", "space-between"),
      ("acsa", "space-around"), ("acs", "stretch")]

def fontWeights : Table RuleValue :=
  texts "fontWeight"
    [("normal", "normal"), ("b", "bold"), ("fw1", "100"), ("fw2", "200"), ("fw3", "300"),
      ("fw4", "400"), ("fw5", "500"), ("fw6", "600"), ("fw7", "700"), ("fw8", "800"),
      ("fw9", "900")]

/-- How an image fills its box. -/
def images : Table RuleValue :=
  texts "resizeMode"
    [("rm-contain", "contain"), ("rm-cover", "cover"), ("rm-stretch", "stretch"),
      ("rm-center", "center"), ("rm-repeat", "repeat")]

/-- Alignment, slant, case and decoration of text. -/
def text : Table RuleValue :=
  texts "textAlign" [("tl", "left"), ("tc", "center"), ("tr", "right"), ("tj", "justify")] ++
  texts "fontStyle" [("i", "italic"), ("fs-normal", "normal")] ++
  texts "textTransform"
    [("ttc", "capitalize"), ("ttl", "lowercase"), ("ttu", "uppercase"), ("ttn", "none")] ++
  texts "textDecorationLine"
    [("strike", "line-through"), ("underline", "underline"), ("no-underline", "none")]

def opacity : Table RuleValue :=
  numbers "opacity"
    [("o-100", 1), ("o-90", 0.9), ("o-80", 0.8), ("o-70", 0.7), ("o-60", 0.6), ("o-50", 0.5),
      ("o-40", 0.4), ("o-30", 0.3), ("o-20", 0.2), ("o-10", 0.1), ("o-05", 0.05),
      ("o-025", 0.025), ("o-0", 0)]

def placement : Table RuleValue :=
  texts "position" [("absolute", "absolute"), ("relative", "relative")] ++
  [⟨"absolute-fill",
    [("position", .text "absolute"), ("top", .number 0), ("left", .number 0),
      ("right", .number 0), ("bottom", .number 0)]⟩] ++
  numbers "top" [("top-0", 0)] ++
  numbers "right" [("right-0", 0)] ++
  numbers "bottom" [("bottom-0", 0)] ++
  numbers "left" [("left-0", 0)] ++
  texts "overflow"
    [("overflow-visible", "visible"), ("overflow-hidden", "hidden"),
      ("overflow-scroll", "scroll")] ++
  texts "display" [("dn", "none"), ("dflex", "flex")]

end AtomicStyle.Vocabulary
