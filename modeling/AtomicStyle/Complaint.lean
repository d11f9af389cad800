import AtomicStyle.Text.Quoted

/-!
# Complaints about documents

A document can follow its grammar and still not fit: a setting may be unknown, given twice or of the
wrong kind. JSON and YAML documents share these complaints and differ in a few words.
-/

namespace AtomicStyle

/-- What stands in a document. -/
inductive Found where
  | text (s : String)
  | integer (n : Int)
  /-- A whole number beyond 64 bits. -/
  | wide (n : Int)
  | real (x : Float)
  | boolean (b : Bool)
  | nothing
  | sequence
  | map

/-- What should stand there. -/
inductive Wanted where
  | settings
  | colorSettings
  | number
  | map
  | text
  | settingName
  | anything
deriving DecidableEq, Repr

inductive Section where
  | top
  | colors
deriving DecidableEq, Repr

/-- Why the content of a document does not fit. -/
inductive Complaint where
  | unknownField (name : String) (within : Section)
  | duplicateField (name : String)
  | wrongType (found : Found) (wanted : Wanted)
  /-- Neither a share nor `false`. -/
  | notAdjustment
  /-- The literal `true` in place of a share or `false`. -/
  | adjustmentTrue
  /-- Neither a number nor a text. -/
  | notRuleValue

/-- The words in which the formats of documents differ. -/
structure Wording where
  nothing : String
  real : Float → String

namespace Found

def message (w : Wording) : Found → String
  | text s => "string " ++ Text.messageQuoted s
  | integer n => "integer `" ++ Int.repr n ++ "`"
  | wide n => "integer `" ++ Int.repr n ++ "` as " ++ if n < 0 then "i128" else "u128"
  | real x => "floating point `" ++ w.real x ++ "`"
  | boolean b => "boolean `" ++ (if b then "true" else "false") ++ "`"
  | nothing => w.nothing
  | sequence => "sequence"
  | map => "map"

end Found

def Wanted.message : Wanted → String
  | settings => "struct PartialConfig"
  | colorSettings => "struct PartialColorConfig"
  | number => "f64"
  | map => "a map"
  | text => "a string"
  | settingName => "field identifier"
  | anything => "any value"

def Section.names : Section → List String
  | top => ["rem", "remUnit", "colors", "fonts"]
  | colors => ["lighten", "darken", "palette"]

def Complaint.message (w : Wording) : Complaint → String
  | unknownField name within =>
    "unknown field `" ++ name ++ "`, expected one of " ++
      ", ".intercalate (within.names.map fun n => "`" ++ n ++ "`")
  | duplicateField name => "duplicate field `" ++ name ++ "`"
  | wrongType found wanted => "invalid type: " ++ found.message w ++ ", expected " ++ wanted.message
  | notAdjustment => "data did not match any variant of untagged enum Raw"
  | adjustmentTrue => "expected a ratio or `false`, got `true`"
  | notRuleValue => "data did not match any variant of untagged enum RuleValue"

end AtomicStyle
