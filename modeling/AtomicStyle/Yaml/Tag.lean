import AtomicStyle.Yaml.Scalar

/-!
# Tags, anchors and directives

The parts of a document that say something about a node or about the document itself.
-/

namespace AtomicStyle.Yaml

/-- A tag as written: a handle, which is empty for a verbatim tag, and what follows it. -/
structure TagText where
  handle : String
  suffix : String
deriving DecidableEq, Repr

/-- A line that begins with a percent sign. -/
inductive Directive where
  | version (major minor : Nat)
  | tag (handle lead : String)
deriving DecidableEq, Repr

/-- Reads the name of an anchor or alias after its indicator. -/
def readAnchor (cur : Cursor) : Except Fault (String × Cursor) :=
  let (name, next) := cur.readWhile isWordChar
  let ends := atSpace next.rest || next.rest.head?.any fun c => "?:,]\x7d%@`".toList.contains c
  if name.isEmpty || !ends then .error .badAnchor else .ok (String.ofList name, next)

section Uri

/-- The characters of a URI; structure indicators are among them inside angle brackets. -/
def isUriChar (verbatim : Bool) (c : Char) : Bool :=
  isWordChar c || ";/?:@&=+$.%!~*'()".toList.contains c ||
    (verbatim && (c = ',' || c = '[' || c = ']'))

def readOctet : List Char → Except Fault (Nat × List Char)
  | '%' :: a :: b :: rest =>
    match hexNumber? [a, b] with
    | some n => .ok (n, rest)
    | none => .error .badTag
  | _ => .error .badTag

/-- Reads some more octets of a character, each of which brings six bits. -/
def readTrailing : (count : Nat) → Nat → List Char → Except Fault (Nat × List Char)
  | 0, n, cs => .ok (n, cs)
  | count + 1, n, cs => do
    let (octet, cs) ← readOctet cs
    if octet / 64 = 2 then readTrailing count (64 * n + octet % 64) cs else .error .badTag

/-- Reads the escapes of one character and returns their number. -/
def readUriEscape (cs : List Char) : Except Fault (Char × Nat) := do
  let (octet, rest) ← readOctet cs
  if octet < 0x80 then return (Char.ofNat octet, 1)
  else if octet / 32 = 6 then return (Char.ofNat (← readTrailing 1 (octet % 32) rest).1, 2)
  else if octet / 16 = 14 then return (Char.ofNat (← readTrailing 2 (octet % 16) rest).1, 3)
  else if octet / 8 = 30 then return (Char.ofNat (← readTrailing 3 (octet % 8) rest).1, 4)
  else throw .badTag

/-- Reads the characters of a URI. Each step takes at least one character of the rest, which has
`fuel` or fewer. -/
def readUri (verbatim : Bool) :
    (fuel : Nat) → List Char → Cursor → Except Fault (List Char × Cursor)
  | 0, uri, cur => .ok (uri.reverse, cur)
  | fuel + 1, uri, cur =>
    match cur.rest with
    | [] => .ok (uri.reverse, cur)
    | c :: _ =>
      if !isUriChar verbatim c then .ok (uri.reverse, cur)
      else if c = '%' then do
        let (d, count) ← readUriEscape cur.rest
        readUri verbatim fuel (d :: uri) (cur.skip (3 * count))
      else readUri verbatim fuel (c :: uri) (cur.skip 1)

def readSomeUri (verbatim : Bool) (cur : Cursor) : Except Fault (List Char × Cursor) := do
  let (uri, next) ← readUri verbatim cur.rest.length [] cur
  if next.index = cur.index then throw .badTag else return (uri, next)

end Uri

/-- Reads a handle: an exclamation mark, a word, and another mark if there is one. -/
def readHandle (cur : Cursor) : Except Fault (List Char × Cursor) :=
  if cur.isAt '!' then
    let (word, next) := (cur.skip 1).readWhile isWordChar
    if next.isAt '!' then .ok ('!' :: word ++ ['!'], next.skip 1) else .ok ('!' :: word, next)
  else .error .badTag

/-- Whether a handle has a mark at both ends. -/
def isClosedHandle (handle : List Char) : Bool := 1 < handle.length && handle.getLast? = some '!'

/-- Reads a tag up to the space that must follow it; inside brackets a comma may follow too. -/
def readTag (inFlow : Bool) (cur : Cursor) : Except Fault (TagText × Cursor) := do
  let (tag, cur) ←
    if (cur.skip 1).isAt '<' then do
      let (suffix, cur) ← readSomeUri true (cur.skip 2)
      if cur.isAt '>' then pure ((⟨"", String.ofList suffix⟩ : TagText), cur.skip 1)
      else throw .badTag
    else do
      let (handle, cur) ← readHandle cur
      if isClosedHandle handle then do
        let (suffix, cur) ← readSomeUri false cur
        pure (⟨String.ofList handle, String.ofList suffix⟩, cur)
      else do
        let (uri, cur) ← readUri false cur.rest.length [] cur
        let suffix := handle.drop 1 ++ uri
        pure (if suffix.isEmpty then ⟨"", "!"⟩ else ⟨"!", String.ofList suffix⟩, cur)
  if atSpace cur.rest || (inFlow && cur.isAt ',') then return (tag, cur) else throw .badTag

section Directives

def readVersionNumber (cur : Cursor) : Except Fault (Nat × Cursor) :=
  let (ds, next) := cur.readWhile Char.isDigit
  if ds.isEmpty || 9 < ds.length then .error .badDirective
  else .ok (Decimal.ofDigits ds, next)

def readVersion (cur : Cursor) : Except Fault (Directive × Cursor) := do
  let (major, cur) ← readVersionNumber (cur.skipWhile isBlank)
  if cur.isAt '.' then
    let (minor, cur) ← readVersionNumber (cur.skip 1)
    return (.version major minor, cur)
  else throw .badDirective

/-- Reads the handle and the lead of a tag directive. -/
def readTagDirective (cur : Cursor) : Except Fault (Directive × Cursor) := do
  let (handle, cur) ← readHandle (cur.skipWhile isBlank)
  if !isClosedHandle handle && handle != ['!'] then throw .badDirective
  if !(cur.rest.head?.any isBlank) then throw .badDirective
  let (lead, cur) ← readSomeUri true (cur.skipWhile isBlank)
  if !atSpace cur.rest then throw .badDirective
  return (.tag (String.ofList handle) (String.ofList lead), cur)

/-- Reads a directive after its percent sign, with the rest of its line. -/
def readDirective (cur : Cursor) : Except Fault (Directive × Cursor) := do
  let (name, cur) := cur.readWhile isWordChar
  if !atSpace cur.rest then throw .badDirective
  let (directive, cur) ←
    match String.ofList name with
    | "YAML" => readVersion cur
    | "TAG" => readTagDirective cur
    | _ => throw .badDirective
  return (directive, ← cur.finishLine .badDirective)

end Directives

end AtomicStyle.Yaml
