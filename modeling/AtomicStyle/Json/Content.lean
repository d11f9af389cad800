import AtomicStyle.Complaint
import AtomicStyle.Json.Draft

/-!
# The content of JSON documents

A document is read for its content from left to right, and the first thing that is wrong is
reported: a flaw of the text, or a value that does not fit.
-/

namespace AtomicStyle.Json

inductive ReadError where
  | flaw (f : Flaw)
  | unfit (c : Complaint)

def wording : Wording where
  nothing := "null"
  real := Decimal.document.render

def Number.toFloat : Number → Float
  | integer (.ofNat n) => Float.ofNat n
  | integer (.negSucc n) => -Float.ofNat (n + 1)
  | float x => x

def Number.found : Number → Found
  | integer n => .integer n
  | float x => .real x

namespace Draft

def mismatch (wanted : Wanted) (d : Draft) : ReadError :=
  let unfit (found : Found) : ReadError := .unfit (.wrongType found wanted)
  match d with
  | null => unfit .nothing
  | bool b => unfit (.boolean b)
  | number n => unfit n.found
  | text s => unfit (.text s)
  | array _ _ => unfit .sequence
  | object _ _ => unfit .map
  | flawed f => .flaw f

def readString : Draft → Except ReadError String
  | text s => .ok s
  | d => .error (d.mismatch .text)

def readWhole (d : Draft) : Except ReadError Value := d.value.mapError .flaw

/-- Fails at a flaw. -/
def atFlaw {α : Type} (a : α) : Option Flaw → Except ReadError α
  | none => .ok a
  | some f => .error (.flaw f)

end Draft

/-- Refuses a document in which more follows the content. -/
def Document.finish {α : Type} (d : Document) (a : α) : Except ReadError α :=
  if d.surplus then .error (.flaw .malformed) else .ok a

end AtomicStyle.Json
