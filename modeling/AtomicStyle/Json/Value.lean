import AtomicStyle.Decimal.Layout

/-!
# JSON values and how they are written

A value is written without spaces. Texts escape what a document may not hold raw and nothing more. A
number that is not finite has no form in a document and is written as `null`.
-/

namespace AtomicStyle.Json

/-- A number: a whole one, or a binary64 number. -/
inductive Number where
  | integer (n : Int)
  | float (x : Float)

/-- A JSON value; the members of an object have an order. -/
inductive Value where
  | null
  | bool (b : Bool)
  | number (n : Number)
  | text (s : String)
  | array (items : List Value)
  | object (members : List (String × Value))

/-- The letter after the backslash in the short escape of a character. -/
def shortEscape? (c : Char) : Option Char :=
  if c = '"' then some '"'
  else if c = '\\' then some '\\'
  else if c = '\x08' then some 'b'
  else if c = '\t' then some 't'
  else if c = '\n' then some 'n'
  else if c = '\x0c' then some 'f'
  else if c = '\r' then some 'r'
  else none

def escaped (c : Char) : List Char :=
  match shortEscape? c with
  | some letter => ['\\', letter]
  | none =>
    if c.toNat < 0x20 then
      ['\\', 'u', '0', '0', Nat.digitChar (c.toNat / 16), Nat.digitChar (c.toNat % 16)]
    else [c]

def quoted (cs : List Char) : List Char := '"' :: (cs.flatMap escaped ++ ['"'])

def integerChars : Int → List Char
  | .ofNat n => Decimal.digits n
  | .negSucc n => '-' :: Decimal.digits (n + 1)

def Number.chars : Number → List Char
  | integer n => integerChars n
  | float x => if x.isFinite then Decimal.document.chars x else "null".toList

def commaSeparated : List (List Char) → List Char
  | [] => []
  | [one] => one
  | one :: more => one ++ ',' :: commaSeparated more

mutual

def Value.chars : Value → List Char
  | .null => "null".toList
  | .bool true => "true".toList
  | .bool false => "false".toList
  | .number n => n.chars
  | .text s => quoted s.toList
  | .array items => '[' :: (commaSeparated (itemChars items) ++ [']'])
  | .object members => '\x7b' :: (commaSeparated (memberChars members) ++ ['\x7d'])

def itemChars : List Value → List (List Char)
  | [] => []
  | item :: items => item.chars :: itemChars items

def memberChars : List (String × Value) → List (List Char)
  | [] => []
  | (name, value) :: members => (quoted name.toList ++ ':' :: value.chars) :: memberChars members

end

def Value.render (v : Value) : String := String.ofList v.chars

end AtomicStyle.Json
