import AtomicStyle.Decimal.Basic

/-!
# Reading a number

A numeral is an optional sign and then digits with an optional point and an optional power of ten,
or one of the words `inf`, `infinity` and `nan` in any case. One digit before or after the point is
enough, and a power of ten needs a digit. Nothing else may stand in the text, no blank either.
-/

namespace AtomicStyle

/-- What a numeral says, before it is rounded to a number format. -/
inductive Numeral where
  | finite (negative : Bool) (value : Decimal)
  | infinite (negative : Bool)
  | notANumber
deriving DecidableEq, Repr

namespace Numeral

/-- The lower-case form of an ASCII letter; other characters stay as they are. -/
def lower (cs : List Char) : List Char := cs.map Char.toLower

/-- Reads a leading sign and says whether it is the minus sign. -/
def sign : List Char → Bool × List Char
  | '-' :: rest => (true, rest)
  | '+' :: rest => (false, rest)
  | cs => (false, cs)

/-- Reads the power of ten that ends a numeral; without one the power is zero. -/
def power? : List Char → Option Int
  | [] => some 0
  | e :: rest =>
    if e = 'e' ∨ e = 'E' then
      let (negative, ds) := sign rest
      if ds.isEmpty ∨ !ds.all Char.isDigit then none
      else some (if negative then -(Decimal.ofDigits ds : Int) else Decimal.ofDigits ds)
    else none

/-- The digits after a point, and what follows them. -/
def fraction : List Char → List Char × List Char
  | '.' :: rest => rest.span Char.isDigit
  | cs => ([], cs)

/-- Reads digits with a point and a power of ten, but no sign. -/
def decimal? (cs : List Char) : Option Decimal := do
  let (whole, rest) := cs.span Char.isDigit
  let (part, rest) := fraction rest
  if whole.isEmpty ∧ part.isEmpty then none
  else
    let power ← power? rest
    some ⟨Decimal.ofDigits (whole ++ part), power - part.length⟩

def read? (cs : List Char) : Option Numeral :=
  let (negative, body) := sign cs
  let word := lower body
  if word = ['i', 'n', 'f'] ∨ word = ['i', 'n', 'f', 'i', 'n', 'i', 't', 'y'] then
    some (.infinite negative)
  else if word = ['n', 'a', 'n'] then some .notANumber
  else (decimal? body).map (.finite negative)

def toFloat : Numeral → Float
  | finite false d => d.toFloat
  | finite true d => -d.toFloat
  | infinite false => 1.0 / 0.0
  | infinite true => -1.0 / 0.0
  | notANumber => 0.0 / 0.0

def toFloat32 : Numeral → Float32
  | finite false d => d.toFloat32
  | finite true d => -d.toFloat32
  | infinite false => 1.0 / 0.0
  | infinite true => -1.0 / 0.0
  | notANumber => 0.0 / 0.0

def float? (cs : List Char) : Option Float := (read? cs).map toFloat

def float32? (cs : List Char) : Option Float32 := (read? cs).map toFloat32

end Numeral

end AtomicStyle
