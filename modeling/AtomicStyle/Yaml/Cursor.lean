/-!
# Places in a YAML document

A document is read through a cursor, which holds the rest of the text and says where it begins.
-/

namespace AtomicStyle.Yaml

/-- What is wrong with a document that is not well formed. -/
inductive Fault where
  | forbiddenCharacter
  | unexpectedCharacter
  | unclosedText
  | badEscape
  | badIndentation
  | badDirective
  | badTag
  | badAnchor
  /-- A key that must be one has no colon. -/
  | missingColon
  /-- An entry, key or value stands where none can begin. -/
  | misplaced
  | unexpectedToken
  | unknownAnchor
  /-- Collections are nested too deep, or aliases are followed too often. -/
  | limit
deriving DecidableEq, Repr

def isBlank (c : Char) : Bool := c = ' ' || c = '\t'

def isBreak (c : Char) : Bool :=
  c = '\n' || c = '\r' || c = '\u0085' || c = '\u2028' || c = '\u2029'

def isSpace (c : Char) : Bool := isBlank c || isBreak c

/-- A character of names: a letter, a digit, a hyphen or an underscore. -/
def isWordChar (c : Char) : Bool := c.isAlphanum || c = '-' || c = '_'

/-- A character that indicates structure inside brackets. -/
def isFlowIndicator (c : Char) : Bool :=
  c = ',' || c = '[' || c = ']' || c = '\x7b' || c = '\x7d'

/-- The characters that a document may hold. -/
def isAllowed (c : Char) : Bool :=
  let n := c.toNat
  n = 9 || n = 10 || n = 13 || (0x20 ≤ n && n ≤ 0x7E) || n = 0x85 || (0xA0 ≤ n && n ≤ 0xD7FF) ||
    (0xE000 ≤ n && n ≤ 0xFFFD) || 0x10000 ≤ n

/-- Whether a rest of a text is at its end or at a blank or break. -/
def atSpace : List Char → Bool
  | [] => true
  | c :: _ => isSpace c

/-- Whether a rest of a text is at its end or at a break. -/
def atLineEnd : List Char → Bool
  | [] => true
  | c :: _ => isBreak c

/-- The rest of a text, and the place where it begins. -/
structure Cursor where
  rest : List Char
  index : Nat
  line : Nat
  column : Nat

namespace Cursor

def start (text : List Char) : Cursor := ⟨text, 0, 0, 0⟩

/-- Goes forward by some characters, none of them a break. -/
def skip (cur : Cursor) (n : Nat) : Cursor :=
  { cur with rest := cur.rest.drop n, index := cur.index + n, column := cur.column + n }

def isAt (cur : Cursor) (c : Char) : Bool := cur.rest.head? = some c

/-- Reads a break: its text in a value, and the cursor at the start of the next line. A carriage
return, a line feed, both together and a next-line character all read as a line feed. -/
def readBreak (cur : Cursor) : List Char × Cursor :=
  let next (n : Nat) : Cursor := ⟨cur.rest.drop n, cur.index + n, cur.line + 1, 0⟩
  match cur.rest with
  | '\r' :: '\n' :: _ => (['\n'], next 2)
  | c :: _ =>
    if isBreak c then (if c = '\u2028' ∨ c = '\u2029' then [c] else ['\n'], next 1) else ([], cur)
  | [] => ([], cur)

/-- Reads the characters in front that satisfy a predicate, none of them a break. -/
def readWhile (cur : Cursor) (p : Char → Bool) : List Char × Cursor :=
  let front := cur.rest.takeWhile p
  (front, cur.skip front.length)

/-- Skips the characters in front that satisfy a predicate, none of them a break. -/
def skipWhile (cur : Cursor) (p : Char → Bool) : Cursor := (cur.readWhile p).2

/-- Skips a comment, if one begins here, up to the end of its line. -/
def skipComment (cur : Cursor) : Cursor :=
  if cur.isAt '#' then cur.skipWhile fun c => !isBreak c else cur

/-- Skips blanks, a comment and the break after them. More on the line is a fault. -/
def finishLine (cur : Cursor) (fault : Fault) : Except Fault Cursor :=
  let cur := (cur.skipWhile isBlank).skipComment
  if atLineEnd cur.rest then .ok cur.readBreak.2 else .error fault

/-- Whether one of the marks `---` and `...` stands here, at the start of a line. -/
def isAtDocumentMark (cur : Cursor) : Bool :=
  cur.column = 0 &&
    match cur.rest with
    | '-' :: '-' :: '-' :: rest | '.' :: '.' :: '.' :: rest => atSpace rest
    | _ => false

end Cursor

end AtomicStyle.Yaml
