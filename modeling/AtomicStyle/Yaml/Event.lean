import AtomicStyle.Yaml.Token

/-!
# Events

The tokens of a document spell out its nodes: scalars, aliases, and the beginnings and ends of
collections. A node that is left out is an empty plain scalar. Reading stops at the first token that
does not fit; what was read before is kept.
-/

namespace AtomicStyle.Yaml

/-- What a node may say about itself. -/
structure Properties where
  anchor : Option String := none
  tag : Option String := none
deriving DecidableEq, Repr

/-- A piece of a node. -/
inductive Event where
  | reference (name : String)
  | scalar (properties : Properties) (text : String) (style : Style)
  | sequenceStart (properties : Properties)
  | sequenceEnd
  | mappingStart (properties : Properties)
  | mappingEnd
deriving DecidableEq, Repr

/-- The state of reading events. -/
structure Spell where
  tokens : List Token
  /-- The fault at which the tokens end. -/
  fault : Option Fault
  /-- The handles that directives declare, with their leads. -/
  handles : List (String × String) := []
  /-- The events so far, the last one first. -/
  events : List Event := []

namespace Spell

/-- Work on the state that may end at a fault, and then leaves the state as it is there. -/
abbrev M := ExceptT Fault (StateM Spell)

def peek : M Token := do
  let s ← get
  match s.tokens with
  | t :: _ => return t
  | [] => throw (s.fault.getD .unexpectedToken)

def advance : M Unit := modify fun s => { s with tokens := s.tokens.drop 1 }

/-- Goes past the next token and returns the one after it. -/
def next : M Token := do advance; peek

def emit (e : Event) : M Unit := modify fun s => { s with events := e :: s.events }

def emitEmpty : M Unit := emit (.scalar {} "" .plain)

def resolveTag (t : TagText) : M String := do
  if t.handle.isEmpty then return t.suffix
  match (← get).handles.find? fun h => h.1 = t.handle with
  | some (_, lead) => return lead ++ t.suffix
  | none => throw .badTag

/-- Reads the anchor and the tag of a node, in either order; the tag stays as written. -/
def readProperties : M (Option String × Option TagText) := do
  match ← peek with
  | .anchor name =>
    match ← next with
    | .tag t => advance; return (some name, some t)
    | _ => return (some name, none)
  | .tag t =>
    match ← next with
    | .anchor name => advance; return (some name, some t)
    | _ => return (none, some t)
  | _ => return (none, none)

mutual

/-- Reads a node. Block collections are allowed if `block`, and a sequence that is not indented if
`indentless`. Each call takes a token or follows one that did, so `fuel` of a few steps for each
token is enough. -/
def node (block indentless : Bool) : (fuel : Nat) → M Unit
  | 0 => throw .limit
  | fuel + 1 => do
    if let .reference name ← peek then
      advance
      emit (.reference name)
    else
      let (anchor, tagText) ← readProperties
      let tag ← tagText.mapM resolveTag
      let properties : Properties := ⟨anchor, tag⟩
      match ← peek with
      | .blockEntry =>
        if indentless then
          emit (.sequenceStart properties)
          indentlessEntries fuel
        else absent properties
      | .scalar text style =>
        let tag := if tag = some "!" then none else tag
        advance
        emit (.scalar { properties with tag } text style)
      | .flowSequenceStart =>
        emit (.sequenceStart properties)
        advance
        flowEntries true fuel
      | .flowMappingStart =>
        emit (.mappingStart properties)
        advance
        flowPairs true fuel
      | .blockSequenceStart =>
        if block then
          emit (.sequenceStart properties)
          advance
          blockEntries fuel
        else absent properties
      | .blockMappingStart =>
        if block then
          emit (.mappingStart properties)
          advance
          blockPairs fuel
        else absent properties
      | _ => absent properties

/-- A node of which there is nothing but its properties. -/
def absent (properties : Properties) : M Unit :=
  if properties.anchor.isSome || properties.tag.isSome then emit (.scalar properties "" .plain)
  else throw .unexpectedToken

def blockEntries : (fuel : Nat) → M Unit
  | 0 => throw .limit
  | fuel + 1 => do
    match ← peek with
    | .blockEntry =>
      match ← next with
      | .blockEntry | .blockEnd => emitEmpty
      | _ => node true false fuel
      blockEntries fuel
    | .blockEnd =>
      emit .sequenceEnd
      advance
    | _ => throw .unexpectedToken

def indentlessEntries : (fuel : Nat) → M Unit
  | 0 => throw .limit
  | fuel + 1 => do
    match ← peek with
    | .blockEntry =>
      match ← next with
      | .blockEntry | .key | .value | .blockEnd => emitEmpty
      | _ => node true false fuel
      indentlessEntries fuel
    | _ => emit .sequenceEnd

def blockPairs : (fuel : Nat) → M Unit
  | 0 => throw .limit
  | fuel + 1 => do
    match ← peek with
    | .key =>
      match ← next with
      | .key | .value | .blockEnd => emitEmpty
      | _ => node true true fuel
      match ← peek with
      | .value =>
        match ← next with
        | .key | .value | .blockEnd => emitEmpty
        | _ => node true true fuel
      | _ => emitEmpty
      blockPairs fuel
    | .blockEnd =>
      emit .mappingEnd
      advance
    | _ => throw .unexpectedToken

def flowEntries (first : Bool) : (fuel : Nat) → M Unit
  | 0 => throw .limit
  | fuel + 1 => do
    match ← entryStart first .flowSequenceEnd with
    | .flowSequenceEnd =>
      emit .sequenceEnd
      advance
    | .key =>
      emit (.mappingStart {})
      match ← next with
      | .value | .flowEntry | .flowSequenceEnd =>
        advance
        emitEmpty
      | _ => node false false fuel
      match ← peek with
      | .value =>
        match ← next with
        | .flowEntry | .flowSequenceEnd => emitEmpty
        | _ => node false false fuel
      | _ => emitEmpty
      let _ ← peek
      emit .mappingEnd
      flowEntries false fuel
    | _ =>
      node false false fuel
      flowEntries false fuel

/-- The token at which an entry in brackets begins, past the comma that must stand in front of all
but the first, or the closing bracket. -/
def entryStart (first : Bool) (closing : Token) : M Token := do
  let t ← peek
  if first || t = closing then return t
  else if t = .flowEntry then next
  else throw .unexpectedToken

def flowPairs (first : Bool) : (fuel : Nat) → M Unit
  | 0 => throw .limit
  | fuel + 1 => do
    match ← entryStart first .flowMappingEnd with
    | .flowMappingEnd =>
      emit .mappingEnd
      advance
    | .key =>
      match ← next with
      | .value | .flowEntry | .flowMappingEnd => emitEmpty
      | _ => node false false fuel
      match ← peek with
      | .value =>
        match ← next with
        | .flowEntry | .flowMappingEnd => emitEmpty
        | _ => node false false fuel
      | _ => emitEmpty
      flowPairs false fuel
    | _ =>
      node false false fuel
      let _ ← peek
      emitEmpty
      flowPairs false fuel

end

def directives : (fuel : Nat) → (versionSeen : Bool) → M Unit
  | 0, _ => throw .limit
  | fuel + 1, versionSeen => do
    match ← peek with
    | .directive (.version major minor) =>
      if versionSeen || major ≠ 1 || (minor ≠ 1 && minor ≠ 2) then throw .badDirective
      advance
      directives fuel true
    | .directive (.tag handle lead) =>
      if (← get).handles.any fun h => h.1 = handle then throw .badDirective
      modify fun s => { s with handles := s.handles ++ [(handle, lead)] }
      advance
      directives fuel versionSeen
    | _ => return

/-- The handles that need no directive, behind those that have one. -/
def standardHandles : List (String × String) := [("!", "!"), ("!!", "tag:yaml.org,2002:")]

/-- Reads the first document, if there is one, up to what marks its end. -/
def document (fuel : Nat) : M Unit := do
  match ← peek with
  | .streamEnd => return
  | .directive _ | .documentStart =>
    directives fuel false
    modify fun s => { s with handles := s.handles ++ standardHandles }
    match ← peek with
    | .documentStart =>
      match ← next with
      | .directive _ | .documentStart | .documentEnd | .streamEnd => emitEmpty
      | _ => node true false fuel
    | _ => throw .unexpectedToken
  | _ =>
    modify fun s => { s with handles := standardHandles }
    node true false fuel
  if let .documentEnd ← peek then advance

/-- Goes to the end of the stream; another document is a fault. -/
def finish : M Unit := do
  modify fun s => { s with tokens := s.tokens.dropWhile (· = .documentEnd) }
  match ← peek with
  | .streamEnd => return
  | _ => throw .unexpectedToken

end Spell

structure EventStream where
  events : List Event
  /-- Whether there is no fault and no further document. -/
  complete : Bool

def EventStream.read (text : List Char) : EventStream :=
  let (tokens, fault) := Token.scan text
  let (outcome, s) := (Spell.document (4 * tokens.length + 8)).run { tokens, fault }
  let complete :=
    match outcome with
    | .ok () => ((Spell.finish.run s).1).toBool
    | .error _ => false
  ⟨s.events.reverse, complete⟩

end AtomicStyle.Yaml
