import AtomicStyle.Yaml.Tag

/-!
# Tokens

A document is first taken apart into tokens. Indentation becomes tokens too: one at the start of a
block collection and one at its end. A key without an indicator of its own is found out only at the
colon behind it; its token is then put in front of the tokens of the key, which are kept back as
long as that may happen.
-/

namespace AtomicStyle.Yaml

inductive Token where
  | streamEnd
  | directive (d : Directive)
  | documentStart
  | documentEnd
  | blockSequenceStart
  | blockMappingStart
  | blockEnd
  | flowSequenceStart
  | flowSequenceEnd
  | flowMappingStart
  | flowMappingEnd
  | blockEntry
  | flowEntry
  | key
  | value
  | reference (name : String)
  | anchor (name : String)
  | tag (t : TagText)
  | scalar (text : String) (style : Style)
deriving DecidableEq, Repr

/-- A place where a key may have begun. -/
structure SimpleKey where
  /-- Whether it must be a key, since a line of a mapping begins there. -/
  required : Bool
  /-- The number of the token with which it began. -/
  number : Nat
  index : Nat
  line : Nat
  column : Nat

/-- The state of taking a document apart. -/
structure Scan where
  cursor : Cursor
  /-- The tokens that are final, the last one first. -/
  done : List Token := []
  count : Nat := 0
  /-- The tokens that are kept back. -/
  queue : List Token := []
  /-- The indentation of the innermost block collection. -/
  indent : Int := -1
  outer : List Int := []
  keyAllowed : Bool := true
  /-- For the block context and each open bracket, innermost first, where a key may have begun. -/
  keys : List (Option SimpleKey) := [none]

namespace Scan

def inFlow (s : Scan) : Bool := 1 < s.keys.length

def push (s : Scan) (t : Token) : Scan := { s with queue := s.queue ++ [t] }

/-- Puts a token in front of the one with the given number. -/
def insert (s : Scan) (number : Nat) (t : Token) : Scan :=
  let (front, back) := s.queue.splitAt (number - s.count)
  { s with queue := front ++ t :: back }

def nextNumber (s : Scan) : Nat := s.count + s.queue.length

/-- Gives up the possible keys that lie on an earlier line or too far back. -/
def dropStaleKeys (s : Scan) : Except Fault Scan := do
  let check (key : Option SimpleKey) : Except Fault (Option SimpleKey) :=
    match key with
    | none => .ok none
    | some k =>
      if k.line < s.cursor.line ∨ k.index + 1024 < s.cursor.index then
        if k.required then .error .missingColon else .ok none
      else .ok key
  return { s with keys := ← s.keys.mapM check }

/-- Gives up the possible key at this level. -/
def dropKey (s : Scan) : Except Fault Scan :=
  match s.keys with
  | some k :: keys =>
    if k.required then .error .missingColon else .ok { s with keys := none :: keys }
  | _ => .ok s

def saveKey (s : Scan) : Except Fault Scan :=
  if s.keyAllowed then do
    let required := !s.inFlow && s.indent = (s.cursor.column : Int)
    let key : SimpleKey :=
      ⟨required, s.nextNumber, s.cursor.index, s.cursor.line, s.cursor.column⟩
    let s ← s.dropKey
    return { s with keys := some key :: s.keys.tail }
  else .ok s

/-- Opens a block collection if the column lies further in; its token goes in front of the token
with the given number, or behind all. -/
def indentTo (s : Scan) (column : Nat) (number : Option Nat) (t : Token) : Scan :=
  if !s.inFlow && s.indent < (column : Int) then
    let s := { s with indent := column, outer := s.indent :: s.outer }
    match number with
    | some n => s.insert n t
    | none => s.push t
  else s

/-- Closes block collections of the given indentations that lie further in than `column`. -/
def closeBlocks (column : Int) : List Int → Scan → Scan
  | [], s => s
  | around :: outer, s =>
    if column < s.indent then
      closeBlocks column outer { s.push .blockEnd with indent := around, outer := outer }
    else s

/-- Closes the block collections that lie further in than `column`. -/
def unindentTo (s : Scan) (column : Int) : Scan :=
  if s.inFlow then s else closeBlocks column s.outer s

/-- Goes forward by `n` characters and puts a token behind the others. -/
def take (s : Scan) (n : Nat) (t : Token) : Scan :=
  { s with cursor := s.cursor.skip n }.push t

/-- Skips blanks, comments and breaks. After a break a key may begin, outside brackets. Each step
takes at least one character of the rest, which has `fuel` or fewer. -/
def skipSpace : (fuel : Nat) → Scan → Scan
  | 0, s => s
  | fuel + 1, s =>
    let cur := s.cursor
    let cur := if cur.column = 0 ∧ cur.isAt '\ufeff' then cur.skip 1 else cur
    let tabs := s.inFlow || !s.keyAllowed
    let cur := (cur.skipWhile fun c => c = ' ' || (tabs && c = '\t')).skipComment
    if cur.rest.head?.any isBreak then
      skipSpace fuel
        { s with cursor := cur.readBreak.2, keyAllowed := s.keyAllowed || !s.inFlow }
    else { s with cursor := cur }

section Tokens

/-- The end of the text closes all collections. -/
def addEnd (s : Scan) : Except Fault Scan := do
  let s ← (s.unindentTo (-1)).dropKey
  return { s with keyAllowed := false }.push .streamEnd

/-- A directive closes all block collections. -/
def addDirective (s : Scan) : Except Fault Scan := do
  let s ← (s.unindentTo (-1)).dropKey
  let (d, cursor) ← readDirective (s.cursor.skip 1)
  return { s with cursor, keyAllowed := false }.push (.directive d)

/-- A mark between documents closes all block collections. -/
def addDocumentMark (s : Scan) (t : Token) : Except Fault Scan := do
  let s ← (s.unindentTo (-1)).dropKey
  return { s with keyAllowed := false }.take 3 t

/-- An opening bracket may itself begin a key, and a key may begin behind it. -/
def openFlow (s : Scan) (t : Token) : Except Fault Scan := do
  let s ← s.saveKey
  return { s with keys := none :: s.keys, keyAllowed := true }.take 1 t

/-- A closing bracket ends the level of its brackets. -/
def closeFlow (s : Scan) (t : Token) : Except Fault Scan := do
  let s ← s.dropKey
  let keys := if s.inFlow then s.keys.tail else s.keys
  return { s with keys, keyAllowed := false }.take 1 t

/-- A key may begin behind a comma. -/
def addFlowEntry (s : Scan) : Except Fault Scan := do
  let s ← s.dropKey
  return { s with keyAllowed := true }.take 1 .flowEntry

/-- Outside brackets, opens a block collection at this column, which must be a place for a key. -/
def openBlock (s : Scan) (t : Token) : Except Fault Scan :=
  if s.inFlow then .ok s
  else if s.keyAllowed then .ok (s.indentTo s.cursor.column none t)
  else .error .misplaced

/-- A hyphen begins an item of a block sequence. -/
def addBlockEntry (s : Scan) : Except Fault Scan := do
  let s ← (← s.openBlock .blockSequenceStart).dropKey
  return { s with keyAllowed := true }.take 1 .blockEntry

/-- A question mark begins a key. -/
def addKey (s : Scan) : Except Fault Scan := do
  let s ← (← s.openBlock .blockMappingStart).dropKey
  return { s with keyAllowed := !s.inFlow }.take 1 .key

/-- A colon makes what may be a key into one, and begins a value. -/
def addValue (s : Scan) : Except Fault Scan := do
  match s.keys with
  | some k :: keys =>
    let s := (s.insert k.number .key).indentTo k.column (some k.number) .blockMappingStart
    return { s with keys := none :: keys, keyAllowed := false }.take 1 .value
  | _ =>
    let s ← s.openBlock .blockMappingStart
    return { s with keyAllowed := !s.inFlow }.take 1 .value

/-- An anchor, or a reference to one, may begin a key. -/
def addAnchor (s : Scan) (token : String → Token) : Except Fault Scan := do
  let s ← s.saveKey
  let (name, cursor) ← readAnchor (s.cursor.skip 1)
  return { s with cursor, keyAllowed := false }.push (token name)

def addTag (s : Scan) : Except Fault Scan := do
  let s ← s.saveKey
  let (t, cursor) ← readTag s.inFlow s.cursor
  return { s with cursor, keyAllowed := false }.push (.tag t)

/-- A block scalar is no key; the next line may begin one. -/
def addBlockScalar (s : Scan) (literal : Bool) : Except Fault Scan := do
  let s ← s.dropKey
  let (text, cursor) ← readBlock literal s.indent (s.cursor.skip 1)
  return { s with cursor, keyAllowed := true }.push
    (.scalar (String.ofList text) (if literal then .literal else .folded))

def addQuoted (s : Scan) (single : Bool) : Except Fault Scan := do
  let s ← s.saveKey
  let (text, cursor) ← readQuoted single (s.cursor.skip 1)
  return { s with cursor, keyAllowed := false }.push
    (.scalar (String.ofList text) (if single then .singleQuoted else .doubleQuoted))

/-- A plain scalar may be a key; if it ends with a break, another may begin behind it. -/
def addPlain (s : Scan) : Except Fault Scan := do
  let s ← s.saveKey
  let (text, broken, cursor) ← readPlain s.inFlow (s.indent + 1).toNat s.cursor
  return { s with cursor, keyAllowed := broken }.push (.scalar (String.ofList text) .plain)

/-- Whether a plain scalar can begin with a character before the given rest. -/
def beginsPlain (inFlow : Bool) (c : Char) (rest : List Char) : Bool :=
  !(isSpace c || "-?:,[]\x7b\x7d#&*!|>'\"%@`".toList.contains c) ||
    (c = '-' && !(rest.head?.any isBlank)) ||
    (!inFlow && (c = '?' || c = ':') && !atSpace rest)

/-- Reads the next token, with the tokens for the indentation in front of it. -/
def next (s : Scan) : Except Fault Scan := do
  let s ← (skipSpace (s.cursor.rest.length + 1) s).dropStaleKeys
  let s := s.unindentTo s.cursor.column
  match s.cursor.rest with
  | [] => s.addEnd
  | c :: rest =>
    if s.cursor.column = 0 ∧ c = '%' then s.addDirective
    else if s.cursor.isAtDocumentMark then
      s.addDocumentMark (if c = '-' then .documentStart else .documentEnd)
    else
      match c with
      | '[' => s.openFlow .flowSequenceStart
      | '\x7b' => s.openFlow .flowMappingStart
      | ']' => s.closeFlow .flowSequenceEnd
      | '\x7d' => s.closeFlow .flowMappingEnd
      | ',' => s.addFlowEntry
      | '*' => s.addAnchor .reference
      | '&' => s.addAnchor .anchor
      | '!' => s.addTag
      | '\'' => s.addQuoted true
      | '"' => s.addQuoted false
      | _ =>
        if c = '-' ∧ atSpace rest then s.addBlockEntry
        else if c = '?' ∧ (s.inFlow ∨ atSpace rest) then s.addKey
        else if c = ':' ∧ (s.inFlow ∨ atSpace rest) then s.addValue
        else if c = '|' ∧ !s.inFlow then s.addBlockScalar true
        else if c = '>' ∧ !s.inFlow then s.addBlockScalar false
        else if beginsPlain s.inFlow c rest then s.addPlain
        else .error .unexpectedCharacter

end Tokens

/-- Whether the token in front may still get a key token before it. -/
def headIsHeld (s : Scan) : Bool := s.keys.any fun k => k.any fun k => k.number = s.count

/-- Makes tokens final one by one, reading more where the one in front is not final yet, until the
last one or a fault. -/
def run : (fuel : Nat) → Scan → List Token × Option Fault
  | 0, s => (s.done.reverse, some .limit)
  | fuel + 1, s =>
    let more (s : Scan) : List Token × Option Fault :=
      match s.next with
      | .error e => (s.done.reverse, some e)
      | .ok s => run fuel s
    match s.queue with
    | [] => more s
    | t :: queue =>
      match s.dropStaleKeys with
      | .error e => (s.done.reverse, some e)
      | .ok s =>
        if s.headIsHeld then more s
        else if t = .streamEnd then ((t :: s.done).reverse, none)
        else run fuel { s with done := t :: s.done, count := s.count + 1, queue }

end Scan

/-- The tokens of a text up to its end or to the first fault. Each character brings at most a few
tokens, so the steps suffice. -/
def Token.scan (text : List Char) : List Token × Option Fault :=
  if text.all isAllowed then Scan.run (16 * (text.length + 4)) { cursor := .start text }
  else ([], some .forbiddenCharacter)

end AtomicStyle.Yaml
