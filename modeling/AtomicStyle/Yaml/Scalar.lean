import AtomicStyle.Decimal.Basic
import AtomicStyle.Yaml.Cursor

/-!
# Scalars

The five ways to write a scalar. Plain and quoted scalars may run over several lines, which are
folded: one break becomes a space, and of more breaks all but the first are kept.
-/

namespace AtomicStyle.Yaml

/-- How a scalar is written. -/
inductive Style where
  | plain
  | singleQuoted
  | doubleQuoted
  | literal
  | folded
deriving DecidableEq, Repr

/-- The blanks and breaks between two words of a scalar. -/
structure Gap where
  blanks : List Char := []
  broken : Bool := false
  firstBreak : List Char := []
  moreBreaks : List Char := []

namespace Gap

def folded (g : Gap) : List Char :=
  if g.broken then
    if g.firstBreak = ['\n'] then if g.moreBreaks.isEmpty then [' '] else g.moreBreaks
    else g.firstBreak ++ g.moreBreaks
  else g.blanks

/-- Reads on through blanks and breaks. A tab in front of column `indent` of a later line is a
fault. Each step takes at least one character of the rest, which has `fuel` or fewer. -/
def read (indent : Nat) : (fuel : Nat) → Gap → Cursor → Except Fault (Gap × Cursor)
  | 0, g, cur => .ok (g, cur)
  | fuel + 1, g, cur =>
    match cur.rest with
    | c :: _ =>
      if isBlank c then
        if g.broken then
          if cur.column < indent ∧ c = '\t' then .error .badIndentation
          else read indent fuel g (cur.skip 1)
        else read indent fuel { g with blanks := g.blanks ++ [c] } (cur.skip 1)
      else if isBreak c then
        let (text, next) := cur.readBreak
        if g.broken then read indent fuel { g with moreBreaks := g.moreBreaks ++ text } next
        else read indent fuel { g with blanks := [], broken := true, firstBreak := text } next
      else .ok (g, cur)
    | [] => .ok (g, cur)

end Gap

section Plain

/-- The characters up to a blank, a break or an indicator that ends a plain scalar: a colon before
one of the former, or an indicator of structure inside brackets. -/
def plainWord (inFlow : Bool) : List Char → Except Fault (List Char)
  | [] => .ok []
  | c :: rest =>
    let endsHere := isSpace c || (c = ':' && atSpace rest) || (inFlow && isFlowIndicator c)
    let strayColon :=
      inFlow && c = ':' && rest.head?.any fun d => isFlowIndicator d || d = '?'
    if isSpace c then .ok []
    else if strayColon then .error .unexpectedCharacter
    else if endsHere then .ok []
    else do return c :: (← plainWord inFlow rest)

/-- Reads the words of a plain scalar. The gap that follows the last word is returned too. A word
takes at least one character of the rest, which has `fuel` or fewer. -/
def plainWords (inFlow : Bool) (indent : Nat) :
    (fuel : Nat) → List (List Char) → Gap → Cursor → Except Fault (List (List Char) × Gap × Cursor)
  | 0, words, gap, cur => .ok (words, gap, cur)
  | fuel + 1, words, gap, cur => do
    if cur.isAtDocumentMark || cur.isAt '#' then return (words, gap, cur)
    let word ← plainWord inFlow cur.rest
    let cur := cur.skip word.length
    let (words, gap) := if word.isEmpty then (words, gap) else (word :: gap.folded :: words, {})
    if !(cur.rest.head?.any isSpace) then return (words, gap, cur)
    let (gap, cur) ← Gap.read indent cur.rest.length gap cur
    if !inFlow && cur.column < indent then return (words, gap, cur)
    plainWords inFlow indent fuel words gap cur

/-- Reads a plain scalar: its value, whether a break follows it, and where it ends. -/
def readPlain (inFlow : Bool) (indent : Nat) (cur : Cursor) :
    Except Fault (List Char × Bool × Cursor) := do
  let (words, gap, cur) ← plainWords inFlow indent cur.rest.length [] {} cur
  return (words.reverse.flatten, gap.broken, cur)

end Plain

section Quoted

def hexDigit? (c : Char) : Option Nat :=
  if c.isDigit then some (c.toNat - 48)
  else if 'a' ≤ c ∧ c ≤ 'f' then some (c.toNat - 87)
  else if 'A' ≤ c ∧ c ≤ 'F' then some (c.toNat - 55)
  else none

def hexNumber? (ds : List Char) : Option Nat :=
  ds.foldlM (fun n c => do return 16 * n + (← hexDigit? c)) 0

/-- The character of an escape by one letter. -/
def letterEscape? (c : Char) : Option Char :=
  match c with
  | '0' => some '\x00'
  | 'a' => some '\x07'
  | 'b' => some '\x08'
  | 't' | '\t' => some '\t'
  | 'n' => some '\n'
  | 'v' => some '\x0b'
  | 'f' => some '\x0c'
  | 'r' => some '\r'
  | 'e' => some '\x1b'
  | ' ' | '"' | '/' | '\\' => some c
  | 'N' => some '\u0085'
  | '_' => some '\u00a0'
  | 'L' => some '\u2028'
  | 'P' => some '\u2029'
  | _ => none

/-- The count of digits after the letter of an escape by number. -/
def numberEscape? (c : Char) : Option Nat :=
  match c with
  | 'x' => some 2
  | 'u' => some 4
  | 'U' => some 8
  | _ => none

/-- Reads an escape after its backslash: the character, and how many characters stand for it. -/
def readEscape : List Char → Except Fault (Char × Nat)
  | [] => .error .badEscape
  | c :: rest =>
    match letterEscape? c, numberEscape? c with
    | some d, _ => .ok (d, 1)
    | none, none => .error .badEscape
    | none, some count =>
      let ds := rest.take count
      match if ds.length < count then none else hexNumber? ds with
      | none => .error .badEscape
      | some n =>
        if (0xD800 ≤ n ∧ n ≤ 0xDFFF) ∨ 0x10FFFF < n then .error .badEscape
        else .ok (Char.ofNat n, 1 + count)

/-- Reads the characters of a quoted scalar up to a blank, a break or the closing quote. An escaped
break also ends the word, which is reported. Each step takes at least one character of the rest,
which has `fuel` or fewer. -/
def quotedWord (single : Bool) :
    (fuel : Nat) → List Char → Cursor → Except Fault (List Char × Bool × Cursor)
  | 0, word, cur => .ok (word.reverse, false, cur)
  | fuel + 1, word, cur =>
    match cur.rest with
    | [] => .ok (word.reverse, false, cur)
    | c :: rest =>
      if isSpace c then .ok (word.reverse, false, cur)
      else if single then
        if c = '\'' then
          if rest.head? = some '\'' then quotedWord single fuel ('\'' :: word) (cur.skip 2)
          else .ok (word.reverse, false, cur)
        else quotedWord single fuel (c :: word) (cur.skip 1)
      else if c = '"' then .ok (word.reverse, false, cur)
      else if c = '\\' then
        if rest.head?.any isBreak then .ok (word.reverse, true, (cur.skip 1).readBreak.2)
        else do
          let (d, count) ← readEscape rest
          quotedWord single fuel (d :: word) (cur.skip (1 + count))
      else quotedWord single fuel (c :: word) (cur.skip 1)

/-- Reads the words of a quoted scalar up to its closing quote. -/
def quotedWords (single : Bool) :
    (fuel : Nat) → List (List Char) → Cursor → Except Fault (List (List Char) × Cursor)
  | 0, _, _ => .error .unclosedText
  | fuel + 1, words, cur => do
    if cur.isAtDocumentMark then throw .unexpectedCharacter
    if cur.rest.isEmpty then throw .unclosedText
    let (word, escapedBreak, cur) ← quotedWord single cur.rest.length [] cur
    let words := word :: words
    if cur.isAt (if single then '\'' else '"') then return (words, cur.skip 1)
    let (gap, cur) ← Gap.read 0 cur.rest.length ⟨[], escapedBreak, [], []⟩ cur
    quotedWords single fuel (gap.folded :: words) cur

/-- Reads a quoted scalar after its opening quote. -/
def readQuoted (single : Bool) (cur : Cursor) : Except Fault (List Char × Cursor) := do
  let (words, cur) ← quotedWords single (cur.rest.length + 1) [] cur
  return (words.reverse.flatten, cur)

end Quoted

section Block

/-- What becomes of the breaks at the end of a block scalar. -/
inductive Chomping where
  | strip
  | clip
  | keep
deriving DecidableEq, Repr

def readChomping (cur : Cursor) : Option Chomping × Cursor :=
  match cur.rest with
  | '+' :: _ => (some .keep, cur.skip 1)
  | '-' :: _ => (some .strip, cur.skip 1)
  | _ => (none, cur)

def readIncrement (cur : Cursor) : Except Fault (Option Nat × Cursor) :=
  match cur.rest with
  | c :: _ =>
    if c = '0' then .error .badIndentation
    else if c.isDigit then .ok (some (Decimal.digitValue c), cur.skip 1)
    else .ok (none, cur)
  | [] => .ok (none, cur)

/-- Reads the sign and the digit at the head of a block scalar, in either order. -/
def readHeader (cur : Cursor) : Except Fault (Chomping × Option Nat × Cursor) := do
  let (before, cur) := readChomping cur
  let (increment, cur) ← readIncrement cur
  match before, increment with
  | some chomping, _ => return (chomping, increment, cur)
  | none, none => return (.clip, none, cur)
  | none, some _ =>
    let (after, cur) := readChomping cur
    return (after.getD .clip, increment, cur)

/-- Skips the indentation of lines, reading the breaks of empty ones, up to a line with content.
Without a known indentation the deepest that was met is returned. A line takes at least its break
from the rest, which has `fuel` characters or fewer. -/
def readIndentation (indent : Option Nat) :
    (fuel : Nat) → (deepest : Nat) → List Char → Cursor →
      Except Fault (Nat × List Char × Cursor)
  | 0, deepest, breaks, cur => .ok (deepest, breaks, cur)
  | fuel + 1, deepest, breaks, cur =>
    let room : Nat := (indent.map (· - cur.column)).getD cur.rest.length
    let cur := cur.skip ((cur.rest.take room).takeWhile (· = ' ')).length
    let deepest := max deepest cur.column
    let inside := indent.all fun n => decide (cur.column < n)
    if inside && cur.isAt '\t' then .error .badIndentation
    else if cur.rest.head?.any isBreak then
      let (text, next) := cur.readBreak
      readIndentation indent fuel deepest (breaks ++ text) next
    else .ok (deepest, breaks, cur)

/-- The lines of a block scalar as far as they are read. -/
structure Lines where
  text : List (List Char) := []
  /-- The break after the last line. -/
  lastBreak : List Char := []
  /-- The breaks of empty lines after it. -/
  breaks : List Char
  /-- Whether the last line begins with a blank. -/
  blankStart : Bool := false

/-- Reads the lines of a block scalar that have its indentation. A line takes at least one character
of the rest, which has `fuel` or fewer. -/
def readLines (literal : Bool) (indent : Nat) :
    (fuel : Nat) → Lines → Cursor → Except Fault (Lines × Cursor)
  | 0, lines, cur => .ok (lines, cur)
  | fuel + 1, lines, cur =>
    if cur.column = indent ∧ !cur.rest.isEmpty then do
      let blankStart := cur.rest.head?.any isBlank
      let joint :=
        if !literal ∧ lines.lastBreak = ['\n'] ∧ !lines.blankStart ∧ !blankStart then
          if lines.breaks.isEmpty then [' '] else []
        else lines.lastBreak
      let (line, cur) := cur.readWhile fun c => !isBreak c
      let (lastBreak, cur) := cur.readBreak
      let (_, breaks, cur) ← readIndentation (some indent) (cur.rest.length + 1) 0 [] cur
      readLines literal indent fuel
        ⟨line :: lines.breaks :: joint :: lines.text, lastBreak, breaks, blankStart⟩ cur
    else .ok (lines, cur)

/-- Reads a block scalar after its indicator; `parent` is the indentation around it, which is -1
outside all collections. -/
def readBlock (literal : Bool) (parent : Int) (cur : Cursor) :
    Except Fault (List Char × Cursor) := do
  let (chomping, increment, cur) ← readHeader cur
  let cur ← cur.finishLine .unexpectedCharacter
  let given := increment.map fun n => (max parent 0).toNat + n
  let (deepest, breaks, cur) ← readIndentation given (cur.rest.length + 1) 0 [] cur
  let indent := given.getD (max deepest (max (parent + 1) 1).toNat)
  let (lines, cur) ← readLines literal indent cur.rest.length { breaks } cur
  let last := if chomping = .strip then [] else lines.lastBreak
  let kept := if chomping = .keep then lines.breaks else []
  return ((kept :: last :: lines.text).reverse.flatten, cur)

end Block

end AtomicStyle.Yaml
