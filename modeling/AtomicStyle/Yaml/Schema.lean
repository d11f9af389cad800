import AtomicStyle.Complaint
import AtomicStyle.Decimal.Numeral
import AtomicStyle.Yaml.Scalar

/-!
# What scalars mean

A plain scalar without a tag means nothing, a truth value, a number or a text, by the form of its
text. A tag of the standard set asks for one kind of value, which the text must then have.
-/

namespace AtomicStyle.Yaml

def isNull (s : String) : Bool := s = "null" || s = "Null" || s = "NULL" || s = "~"

def bool? (s : String) : Option Bool :=
  if s = "true" ∨ s = "True" ∨ s = "TRUE" then some true
  else if s = "false" ∨ s = "False" ∨ s = "FALSE" then some false
  else none

/-- The value of a digit in bases up to sixteen. -/
def digit? (base : Nat) (c : Char) : Option Nat := do
  let n ← hexDigit? c
  if n < base then some n else none

/-- A number from digits of a base, of which there must be one. -/
def natural? (base : Nat) (ds : List Char) : Option Nat :=
  if ds.isEmpty then none
  else ds.foldlM (fun n c => do return base * n + (← digit? base c)) 0

/-- Whether a text is a zero with more digits behind it, with or without a sign: such a text looks
like a number and is none. -/
def isPaddedNumber (cs : List Char) : Bool :=
  match (Numeral.sign cs).2 with
  | '0' :: c :: rest => (c :: rest).all Char.isDigit
  | _ => false

/-- The digits of a whole number behind its sign: those of another base after its mark, or decimal
ones. -/
def magnitude? (cs : List Char) (padded : Bool) : Option Nat :=
  let based : Option Nat :=
    match cs with
    | '0' :: 'x' :: ds => natural? 16 ds
    | '0' :: 'o' :: ds => natural? 8 ds
    | '0' :: 'b' :: ds => natural? 2 ds
    | _ => none
  based <|> if padded then none else natural? 10 cs

/-- A whole number: of 64 bits, or of 128. -/
def integer? (cs : List Char) : Option Found := do
  let (negative, body) := Numeral.sign cs
  let n ← magnitude? body (isPaddedNumber cs)
  if negative then
    if n ≤ Nat.pow 2 63 then return .integer (-n)
    else if n ≤ Nat.pow 2 127 then return .wide (-n)
    else none
  else if n < Nat.pow 2 64 then return .integer n
  else if n < Nat.pow 2 128 then return .wide n
  else none

/-- A number in binary64. Infinity and the lack of a number begin with a point, and no other text
may stand for them. -/
def real? (cs : List Char) : Option Float := do
  let body ←
    match cs with
    | '+' :: rest => if rest.head?.any fun c => c = '+' || c = '-' then none else some rest
    | _ => some cs
  if body ∈ [".inf".toList, ".Inf".toList, ".INF".toList] then return 1.0 / 0.0
  else if cs ∈ ["-.inf".toList, "-.Inf".toList, "-.INF".toList] then return -1.0 / 0.0
  else if cs ∈ [".nan".toList, ".NaN".toList, ".NAN".toList] then return 0.0 / 0.0
  else
    let x ← Numeral.float? body
    if x.isFinite then return x else none

/-- The meaning of a plain scalar by the form of its text. -/
def plainMeaning (s : String) : Found :=
  let cs := s.toList
  if s.isEmpty || isNull s then .nothing
  else
    match bool? s, integer? cs with
    | some b, _ => .boolean b
    | none, some n => n
    | none, none =>
      match if isPaddedNumber cs then none else real? cs with
      | some x => .real x
      | none => .text s

def standardTag (name : String) : String := "tag:yaml.org,2002:" ++ name

def isLocalTag (tag : String) : Bool := tag.toList.head? = some '!'

/-- The meaning of a scalar; none if its text lacks the kind that its tag asks for. -/
def meaning? (tag : Option String) (s : String) (style : Style) : Option Found :=
  let cs := s.toList
  let untagged : Found := if style = .plain then plainMeaning s else .text s
  match tag with
  | none => some untagged
  | some t =>
    if t = standardTag "bool" then (bool? s).map .boolean
    else if t = standardTag "int" then integer? cs
    else if t = standardTag "float" then (real? cs).map .real
    else if t = standardTag "null" then if isNull s then some .nothing else none
    else if isLocalTag t then some untagged
    else some (.text s)

end AtomicStyle.Yaml
