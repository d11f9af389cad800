import AtomicStyle.Json.Value

/-!
# Reading numbers in documents

A number in a document has no superfluous zeros in front and digits on both sides of its point. Its
digits are collected into a word of 64 bits, and what does not fit goes into the power of ten; the
word is then multiplied or divided by the power in binary64. The result can be a neighbour of the
nearest number where the digits are many. A number too large for binary64 is not accepted.
-/

namespace AtomicStyle.Json

/-- What is wrong with a document that breaks off the grammar. -/
inductive Flaw where
  | malformed
  | unfinished
deriving DecidableEq, Repr

/-- Appends digits to a number as long as it stays below `2 ^ 64`; the rest is returned. -/
def gather (n : Nat) : List Char → Nat × List Char
  | [] => (n, [])
  | c :: cs =>
    let m := 10 * n + Decimal.digitValue c
    if m < Nat.pow 2 64 then gather m cs else (n, c :: cs)

def powerOfTen (e : Nat) : Float := Float.ofScientific 1 false e

/-- Multiplies or divides by a power of ten. A power below `10 ^ -308` is applied in parts, of which
`parts` are left; after two of them nothing but zero is left of a word of 64 bits. -/
def applyPower (x : Float) (e : Int) : Nat → Except Flaw Float
  | 0 => .ok x
  | parts + 1 =>
    if e.natAbs ≤ 308 then
      if 0 ≤ e then
        let y := x * powerOfTen e.natAbs
        if y.isInf then .error .malformed else .ok y
      else .ok (x / powerOfTen e.natAbs)
    else if x == 0 then .ok x
    else if 0 ≤ e then .error .malformed
    else applyPower (x / powerOfTen 308) (e + 308) parts

/-- The number made of a sign, a word and a power of ten. -/
def assemble (negative : Bool) (word : Nat) (e : Int) : Except Flaw Float := do
  let x ← applyPower (Float.ofNat word) e 4
  return if negative then -x else x

/-- What a missing digit means: more was to come, or something else stands there. -/
def missingDigit : List Char → Flaw
  | [] => .unfinished
  | _ :: _ => .malformed

/-- Reads the power of ten after its mark, and makes the number. Powers of more than 31 bits leave
zero or nothing. -/
def readPower (negative : Bool) (word : Nat) (e : Int) (cs : List Char) :
    Except Flaw (Float × List Char) :=
  let (down, cs) :=
    match cs with
    | '-' :: rest => (true, rest)
    | '+' :: rest => (false, rest)
    | _ => (false, cs)
  let (ds, rest) := cs.span Char.isDigit
  if ds.isEmpty then .error (missingDigit cs)
  else
    let power := Decimal.ofDigits ds
    if power < Nat.pow 2 31 then do
      return (← assemble negative word (if down then e - power else e + power), rest)
    else if word ≠ 0 ∧ !down then .error .malformed
    else .ok (if negative then -0 else 0, rest)

/-- Reads a power of ten if there is one, and makes the number. -/
def readScale (negative : Bool) (word : Nat) (e : Int) (cs : List Char) :
    Except Flaw (Float × List Char) :=
  match cs with
  | 'e' :: rest | 'E' :: rest => readPower negative word e rest
  | _ => do return (← assemble negative word e, cs)

/-- Reads what may follow the digits in front of the point, of which `word` holds all but the last
`dropped`. -/
def readTail (negative : Bool) (word dropped : Nat) (cs : List Char) :
    Except Flaw (Number × List Char) :=
  match cs with
  | '.' :: rest =>
    let (ds, rest') := rest.span Char.isDigit
    if ds.isEmpty then .error (missingDigit rest)
    else do
      let (word, ignored) := gather word ds
      let (x, rest) ← readScale negative word (dropped - (ds.length - ignored.length : Nat)) rest'
      return (.float x, rest)
  | 'e' :: _ | 'E' :: _ => do
    let (x, rest) ← readScale negative word dropped cs
    return (.float x, rest)
  | _ =>
    if 0 < dropped ∨ (negative ∧ (word = 0 ∨ Nat.pow 2 63 < word)) then do
      let (x, rest) ← readScale negative word dropped cs
      return (.float x, rest)
    else .ok (.integer (if negative then -word else word), cs)

/-- Reads a number; its sign is already read. -/
def readUnsigned (negative : Bool) (cs : List Char) : Except Flaw (Number × List Char) :=
  match cs with
  | '0' :: c :: rest =>
    if c.isDigit then .error .malformed else readTail negative 0 0 (c :: rest)
  | _ =>
    let (ds, rest) := cs.span Char.isDigit
    if ds.isEmpty then .error (missingDigit cs)
    else
      let (word, dropped) := gather 0 ds
      readTail negative word dropped.length rest

def readNumber : List Char → Except Flaw (Number × List Char)
  | '-' :: cs => readUnsigned true cs
  | cs => readUnsigned false cs

end AtomicStyle.Json
