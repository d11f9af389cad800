import AtomicStyle.Decimal.Layout

/-!
# What a build reports

While a sheet is compiled and committed, notes are left of what happens. A `Run` is the outcome of
some work with the notes it left, also when it failed.
-/

namespace AtomicStyle

inductive Level where
  | warn
  | debug
deriving DecidableEq, Repr

/-- Something that happened during a build. -/
inductive Note where
  /-- The base unit is not greater than zero. -/
  | unitNotPositive (rem : Float)
  /-- The scaled tables gave this many sizes. -/
  | sized (count : Nat) (rem : Float)
  | variant (name value : String)
  | respelled (name spelling : String)
  /-- This many styles are taken over. -/
  | committed (count : Nat)

namespace Note

def level : Note → Level
  | unitNotPositive _ => .warn
  | _ => .debug

def message : Note → String
  | unitNotPositive rem => "rem unit should be positive, got " ++ Decimal.plain.render rem
  | sized count rem => "got " ++ Nat.repr count ++ " sizes at rem " ++ Decimal.plain.render rem
  | variant name value => "writing alpha variant: " ++ name ++ ": " ++ value
  | respelled name spelling => "replacing " ++ name ++ " -> " ++ spelling
  | committed count => "committing " ++ Nat.repr count ++ " styles"

end Note

/-- An outcome with the notes that were left on the way to it. -/
structure Run (ε α : Type) where
  outcome : Except ε α
  notes : List Note

namespace Run

variable {ε ε' α β : Type}

/-- Goes on after an outcome that is no failure. -/
def andThen (r : Run ε α) (next : α → Run ε β) : Run ε β :=
  match r.outcome with
  | .error e => ⟨.error e, r.notes⟩
  | .ok a => ⟨(next a).outcome, r.notes ++ (next a).notes⟩

instance : Monad (Run ε) where
  pure a := ⟨.ok a, []⟩
  bind := andThen

def leave (notes : List Note) : Run ε Unit := ⟨.ok (), notes⟩

def fail (e : ε) : Run ε α := ⟨.error e, []⟩

def mapError (f : ε → ε') (r : Run ε α) : Run ε' α := ⟨r.outcome.mapError f, r.notes⟩

end Run

end AtomicStyle
