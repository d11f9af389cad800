import AtomicStyle.Declarations
import AtomicStyle.Vocabulary.Basic

/-!
# Filling a sheet

A sheet is filled in layers: fixed groups, scaled groups, three rules for each colour and one for
each font. What a later layer writes takes the place of what was there.
-/

namespace AtomicStyle.Sheet

def addFixed (sheet : Sheet) (tables : List (Table RuleValue)) : Sheet :=
  sheet.insertAll (tables.flatten.map fun group => (group.name, Rule.ofProperties group.properties))

/-- The properties of a scaled group at a unit. -/
def scaledProperties (rem : Float) (group : Group Float) : List (String × Float) :=
  group.properties.map fun property => (property.1, property.2 * rem)

def scaledRule (rem : Float) (group : Group Float) : Rule :=
  .ofProperties ((scaledProperties rem group).map fun property => (property.1, .number property.2))

def addScaled (sheet : Sheet) (tables : List (Table Float)) (rem : Float) : Sheet :=
  sheet.insertAll (tables.flatten.map fun group => (group.name, scaledRule rem group))

/-- The sizes of scaled tables at a unit: for each name the last value that a group gives it. -/
def scaledSizes (tables : List (Table Float)) (rem : Float) : NameMap Float :=
  .ofEntries <| tables.flatten.flatMap fun group =>
    (scaledProperties rem group).map fun property => (group.name, property.2)

/-- The three rules of a colour: as background, as text and as border. -/
def colorRules (entry : String × String) : List (String × Rule) :=
  [("bg-" ++ entry.1, .single "backgroundColor" (.text entry.2)),
    (entry.1, .single "color" (.text entry.2)),
    ("b--" ++ entry.1, .single "borderColor" (.text entry.2))]

/-- Adds the rules of colours, in the order of their names. -/
def addColors (sheet : Sheet) (colors : NameMap String) : Sheet :=
  sheet.insertAll (colors.toList.flatMap colorRules)

def fontRule (entry : String × String) : String × Rule :=
  ("ff-" ++ entry.1, .single "fontFamily" (.text entry.2))

def addFonts (sheet : Sheet) (fonts : Declarations) : Sheet :=
  sheet.insertAll (fonts.toList.map fontRule)

end AtomicStyle.Sheet
