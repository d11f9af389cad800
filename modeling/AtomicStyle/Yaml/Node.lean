import AtomicStyle.Yaml.Event

/-!
# Nodes

The events of a document make up a node, which may be broken off where the document has a fault. An
alias stands for the node that bears its anchor; it is kept as a number, since a node may hold an
alias of itself.
-/

namespace AtomicStyle.Yaml

/-- A piece of a node whose aliases are numbers. -/
inductive Piece where
  | reference (target : Nat)
  | scalar (tag : Option String) (text : String) (style : Style)
  | sequenceStart (tag : Option String)
  | sequenceEnd
  | mappingStart (tag : Option String)
  | mappingEnd

/-- A node. A collection that is not closed ends at a fault. -/
inductive Node where
  | reference (target : Nat)
  | scalar (tag : Option String) (text : String) (style : Style)
  | sequence (tag : Option String) (items : List Node) (closed : Bool)
  | mapping (tag : Option String) (pairs : List (Node × Node)) (closed : Bool)
  /-- A fault stands in place of the node. -/
  | broken

section Numbering

/-- The numbers of the anchors so far, and the places that the numbers stand for. -/
structure Anchors where
  numbers : List (String × Nat) := []
  /-- The place of the latest anchor with a number comes first. -/
  places : List (Nat × Nat) := []

/-- Gives an anchor at a place the number of names before it. A name that comes again counts once
among the names, so the number may be one that is already given. -/
def Anchors.add (a : Anchors) (place : Nat) : Option String → Anchors
  | none => a
  | some name =>
    let n := a.numbers.length
    ⟨(name, n) :: a.numbers.filter (·.1 ≠ name), (n, place) :: a.places⟩

def Anchors.number? (a : Anchors) (name : String) : Option Nat :=
  (a.numbers.find? (·.1 = name)).map Prod.snd

/-- Turns names of aliases into numbers, from the place `place` on. An unknown name ends the
document. -/
def numberAliases (place : Nat) (a : Anchors) : List Event → List Piece × Anchors × Bool
  | [] => ([], a, true)
  | e :: events =>
    let go (piece : Piece) (a : Anchors) : List Piece × Anchors × Bool :=
      let (pieces, a, known) := numberAliases (place + 1) a events
      (piece :: pieces, a, known)
    match e with
    | .reference name =>
      match a.number? name with
      | some n => go (.reference n) a
      | none => ([], a, false)
    | .scalar p text style => go (.scalar p.tag text style) (a.add place p.anchor)
    | .sequenceStart p => go (.sequenceStart p.tag) (a.add place p.anchor)
    | .mappingStart p => go (.mappingStart p.tag) (a.add place p.anchor)
    | .sequenceEnd => go .sequenceEnd a
    | .mappingEnd => go .mappingEnd a

end Numbering

namespace Node

mutual

/-- Reads a node, and returns the pieces after it unless they end inside it. Each call takes a
piece, of which there are `fuel` or fewer. -/
def read : (fuel : Nat) → List Piece → Node × Option (List Piece)
  | 0, _ | _, [] => (broken, none)
  | fuel + 1, piece :: rest =>
    match piece with
    | .reference n => (reference n, some rest)
    | .scalar tag text style => (scalar tag text style, some rest)
    | .sequenceStart tag =>
      let (items, closed, rest) := readItems fuel rest
      (sequence tag items closed, rest)
    | .mappingStart tag =>
      let (pairs, closed, rest) := readPairs fuel rest
      (mapping tag pairs closed, rest)
    | .sequenceEnd | .mappingEnd => (broken, none)

def readItems : (fuel : Nat) → List Piece → List Node × Bool × Option (List Piece)
  | 0, _ | _, [] => ([], false, none)
  | _ + 1, .sequenceEnd :: rest => ([], true, some rest)
  | fuel + 1, pieces =>
    match read fuel pieces with
    | (item, none) => ([item], false, none)
    | (item, some rest) =>
      let (items, closed, rest) := readItems fuel rest
      (item :: items, closed, rest)

def readPairs : (fuel : Nat) → List Piece → List (Node × Node) × Bool × Option (List Piece)
  | 0, _ | _, [] => ([], false, none)
  | _ + 1, .mappingEnd :: rest => ([], true, some rest)
  | fuel + 1, pieces =>
    match read fuel pieces with
    | (key, none) => ([(key, broken)], false, none)
    | (key, some rest) =>
      match read fuel rest with
      | (value, none) => ([(key, value)], false, none)
      | (value, some rest) =>
        let (pairs, closed, rest) := readPairs fuel rest
        ((key, value) :: pairs, closed, rest)

end

end Node

structure Document where
  pieces : List Piece
  places : List (Nat × Nat)
  /-- Whether there is no fault after the pieces and no further document. -/
  complete : Bool

namespace Document

def read (source : String) : Document :=
  let stream := EventStream.read source.toList
  let (pieces, anchors, known) := numberAliases 0 {} stream.events
  ⟨pieces, anchors.places, stream.complete && known⟩

def nodeAt (d : Document) (place : Nat) : Node :=
  (Node.read (2 * d.pieces.length + 2) (d.pieces.drop place)).1

/-- The node of the document; a text without one has none. -/
def root? (d : Document) : Option Node :=
  if d.pieces.isEmpty && d.complete then none else some (d.nodeAt 0)

/-- The node that another one stands for: that of the anchor for an alias. -/
def follow (d : Document) : Node → Node
  | .reference n =>
    match d.places.find? (·.1 = n) with
    | some (_, place) => d.nodeAt place
    | none => .broken
  | node => node

end Document

end AtomicStyle.Yaml
