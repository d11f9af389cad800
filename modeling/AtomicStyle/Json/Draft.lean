import AtomicStyle.Json.Number

/-!
# Reading documents

A text is read from left to right into a draft: the value as far as the text follows the grammar,
and the flaw where it stops doing so. A draft of a flawless text is a value. Keeping the flaw in its
place lets a reader of settings report what comes first in the text, be it a flaw or a value of the
wrong kind.
-/

namespace AtomicStyle.Json

/-- A value that may be broken off by a flaw. -/
inductive Draft where
  | null
  | bool (b : Bool)
  | number (n : Number)
  | text (s : String)
  /-- The items that were begun, and a flaw that stands where another item or the end is due. -/
  | array (items : List Draft) (flaw : Option Flaw)
  /-- The members that were begun, and a flaw that stands where another member or the end is due. -/
  | object (members : List (String × Draft)) (flaw : Option Flaw)
  | flawed (flaw : Flaw)

/-- Whether a character may stand between the tokens of a document. -/
def isSpace (c : Char) : Bool := c = ' ' || c = '\n' || c = '\t' || c = '\r'

def skipSpace (cs : List Char) : List Char := cs.dropWhile isSpace

section Texts

def hexWord? (a b c d : Char) : Option Nat := do
  let value (c : Char) : Option Nat :=
    if c.isDigit then some (c.toNat - 48)
    else if 'a' ≤ c ∧ c ≤ 'f' then some (c.toNat - 87)
    else if 'A' ≤ c ∧ c ≤ 'F' then some (c.toNat - 55)
    else none
  return ((← value a) * 16 + (← value b)) * 256 + ((← value c) * 16 + (← value d))

/-- Reads the four digits of an escape, which are looked for in the next four bytes. -/
def readWord : List Char → Except Flaw (Nat × List Char)
  | a :: b :: c :: d :: rest =>
    match hexWord? a b c d with
    | some n => .ok (n, rest)
    | none => .error .malformed
  | cs => .error (if (String.ofList cs).utf8ByteSize < 4 then .unfinished else .malformed)

/-- Reads the second half of a surrogate pair and puts the character together. -/
def readLowSurrogate (high : Nat) : List Char → Except Flaw (Char × List Char)
  | '\\' :: 'u' :: rest => do
    let (low, rest) ← readWord rest
    if 0xDC00 ≤ low ∧ low ≤ 0xDFFF then
      return (Char.ofNat (0x10000 + (high - 0xD800) * 0x400 + (low - 0xDC00)), rest)
    else .error .malformed
  | [] | ['\\'] => .error .unfinished
  | _ => .error .malformed

/-- Reads what follows a backslash. -/
def readEscape : List Char → Except Flaw (Char × List Char)
  | 'u' :: rest => do
    let (n, rest) ← readWord rest
    if 0xDC00 ≤ n ∧ n ≤ 0xDFFF then .error .malformed
    else if 0xD800 ≤ n ∧ n ≤ 0xDBFF then readLowSurrogate n rest
    else return (Char.ofNat n, rest)
  | c :: rest =>
    match c with
    | '"' | '\\' | '/' => .ok (c, rest)
    | 'b' => .ok ('\x08', rest)
    | 'f' => .ok ('\x0c', rest)
    | 'n' => .ok ('\n', rest)
    | 'r' => .ok ('\r', rest)
    | 't' => .ok ('\t', rest)
    | _ => .error .malformed
  | [] => .error .unfinished

/-- Reads a text up to its closing quote. Each character takes at least one from the rest, whose
length is `fuel` or less. -/
def readText : (fuel : Nat) → List Char → Except Flaw (List Char × List Char)
  | 0, _ => .error .unfinished
  | _, [] => .error .unfinished
  | _, '"' :: rest => .ok ([], rest)
  | fuel + 1, '\\' :: rest => do
    let (c, rest) ← readEscape rest
    let (cs, rest) ← readText fuel rest
    return (c :: cs, rest)
  | fuel + 1, c :: rest =>
    if c.toNat < 0x20 then .error .malformed
    else do
      let (cs, rest) ← readText fuel rest
      return (c :: cs, rest)

def readQuoted (cs : List Char) : Except Flaw (String × List Char) := do
  let (text, rest) ← readText cs.length cs
  return (String.ofList text, rest)

end Texts

section Values

def readLiteral : List Char → List Char → Except Flaw (List Char)
  | [], cs => .ok cs
  | _ :: _, [] => .error .unfinished
  | c :: word, d :: cs => if c = d then readLiteral word cs else .error .malformed

/-- What was read, and the rest of the text unless a flaw was met. -/
abbrev Reading (α : Type) := α × Option (List Char)

def atom : Except Flaw (Draft × List Char) → Reading Draft
  | .ok (d, rest) => (d, some rest)
  | .error flaw => (.flawed flaw, none)

def readAtom (cs : List Char) : Reading Draft :=
  let literal (word : String) (d : Draft) : Reading Draft :=
    atom ((readLiteral word.toList cs).map (d, ·))
  match cs with
  | [] => (.flawed .unfinished, none)
  | 'n' :: _ => literal "null" .null
  | 't' :: _ => literal "true" (.bool true)
  | 'f' :: _ => literal "false" (.bool false)
  | '"' :: rest => atom ((readQuoted rest).map fun r => (.text r.1, r.2))
  | c :: _ =>
    if c = '-' ∨ c.isDigit then atom ((readNumber cs).map fun r => (.number r.1, r.2))
    else (.flawed .malformed, none)

variable (read : List Char → Reading Draft)

/-- Reads the items of an array from where one is due; an item takes at least one character, and the
rest has `fuel` characters or fewer. -/
def readItems : (fuel : Nat) → List Char → List Draft × Option Flaw × Option (List Char)
  | 0, _ => ([], some .unfinished, none)
  | fuel + 1, cs =>
    match read cs with
    | (item, none) => ([item], none, none)
    | (item, some rest) =>
      match skipSpace rest with
      | ']' :: rest => ([item], none, some rest)
      | ',' :: rest =>
        let (items, flaw, rest) := readItems fuel rest
        (item :: items, flaw, rest)
      | [] => ([item], some .unfinished, none)
      | _ :: _ => ([item], some .malformed, none)

def readArray (cs : List Char) : Reading Draft :=
  match skipSpace cs with
  | ']' :: rest => (.array [] none, some rest)
  | [] => (.array [] (some .unfinished), none)
  | cs =>
    let (items, flaw, rest) := readItems read cs.length cs
    (.array items flaw, rest)

/-- Reads the value of a member from the colon that is due. -/
def readMemberValue (cs : List Char) : Reading Draft :=
  match skipSpace cs with
  | ':' :: rest => read rest
  | [] => (.flawed .unfinished, none)
  | _ :: _ => (.flawed .malformed, none)

/-- Reads the members of an object from where the name of one is due; a member takes at least one
character, and the rest has `fuel` characters or fewer. -/
def readMembers : (fuel : Nat) → List Char →
    List (String × Draft) × Option Flaw × Option (List Char)
  | 0, _ => ([], some .unfinished, none)
  | fuel + 1, cs =>
    match skipSpace cs with
    | '"' :: rest =>
      match readQuoted rest with
      | .error flaw => ([], some flaw, none)
      | .ok (name, rest) =>
        match readMemberValue read rest with
        | (value, none) => ([(name, value)], none, none)
        | (value, some rest) =>
          match skipSpace rest with
          | '\x7d' :: rest => ([(name, value)], none, some rest)
          | ',' :: rest =>
            let (members, flaw, rest) := readMembers fuel rest
            ((name, value) :: members, flaw, rest)
          | [] => ([(name, value)], some .unfinished, none)
          | _ :: _ => ([(name, value)], some .malformed, none)
    | [] => ([], some .unfinished, none)
    | _ :: _ => ([], some .malformed, none)

def readObject (cs : List Char) : Reading Draft :=
  match skipSpace cs with
  | '\x7d' :: rest => (.object [] none, some rest)
  | cs =>
    let (members, flaw, rest) := readMembers read cs.length cs
    (.object members flaw, rest)

end Values

/-- Reads a value with arrays and objects at most `depth` deep. -/
def readValue : (depth : Nat) → List Char → Reading Draft
  | 0, cs =>
    match skipSpace cs with
    | '[' :: _ | '\x7b' :: _ => (.flawed .malformed, none)
    | cs => readAtom cs
  | depth + 1, cs =>
    match skipSpace cs with
    | '[' :: rest => readArray (readValue depth) rest
    | '\x7b' :: rest => readObject (readValue depth) rest
    | cs => readAtom cs

def maxDepth : Nat := 127

/-- A whole text: its value, and whether anything follows that may not. -/
structure Document where
  content : Draft
  surplus : Bool

def Document.read (source : String) : Document :=
  match readValue maxDepth source.toList with
  | (content, none) => ⟨content, false⟩
  | (content, some rest) => ⟨content, !(skipSpace rest).isEmpty⟩

namespace Draft

mutual

/-- The value of a draft without flaws, or its first flaw. -/
def value : Draft → Except Flaw Value
  | null => .ok .null
  | bool b => .ok (.bool b)
  | number n => .ok (.number n)
  | text s => .ok (.text s)
  | array items flaw => do
    let items ← itemValues items
    match flaw with
    | some f => .error f
    | none => return .array items
  | object members flaw => do
    let members ← memberValues members
    match flaw with
    | some f => .error f
    | none => return .object members
  | flawed f => .error f

def itemValues : List Draft → Except Flaw (List Value)
  | [] => .ok []
  | item :: items => do return (← value item) :: (← itemValues items)

def memberValues : List (String × Draft) → Except Flaw (List (String × Value))
  | [] => .ok []
  | (name, member) :: members => do return (name, ← value member) :: (← memberValues members)

end

end Draft

end AtomicStyle.Json
