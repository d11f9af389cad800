import AtomicStyle.Decimal.Basic

/-!
# The shortest decimal that reads back

The reals that round to a binary64 number form an interval. Among the decimals in it this module
picks one with the fewest digits and, of those, the one nearest to the number. A grid of step
`10 ^ k` meets the interval exactly if one of the number's two neighbours on the grid lies in it, so
it is enough to try the neighbours on finer and finer grids, in exact arithmetic.
-/

namespace AtomicStyle.Decimal

/-- Which of two equally near decimals of the same length is taken. -/
inductive Tie where
  | toEven
  | up
deriving DecidableEq, Repr

/-- The reals that round to `value * 2 ^ unit`, from `low` to `high` in the same unit; the ends
belong to them if `closed`. -/
structure Interval where
  low : Nat
  value : Nat
  high : Nat
  unit : Int
  closed : Bool

/-- The interval of the positive binary64 number `mantissa * 2 ^ exponent`. The gap below a power of
two is half as wide as the gap above it, and a half goes to the even mantissa. -/
def Interval.of (mantissa : Nat) (exponent : Int) : Interval where
  low := if mantissa = Nat.pow 2 52 ∧ -1074 < exponent then 4 * mantissa - 1 else 4 * mantissa - 2
  value := 4 * mantissa
  high := 4 * mantissa + 2
  unit := exponent - 2
  closed := mantissa % 2 = 0

def Interval.holds (i : Interval) (c : Nat) (k : Int) : Bool :=
  let here := c * Nat.pow 10 k.toNat * Nat.pow 2 (-i.unit).toNat
  let scale := Nat.pow 2 i.unit.toNat * Nat.pow 10 (-k).toNat
  if i.closed then decide (i.low * scale ≤ here) && decide (here ≤ i.high * scale)
  else decide (i.low * scale < here) && decide (here < i.high * scale)

/-- The nearer of the number's two neighbours on the grid of step `10 ^ k` that lie in the interval,
if one does. -/
def Interval.onGrid? (i : Interval) (tie : Tie) (k : Int) : Option Decimal :=
  let scaled := i.value * (Nat.pow 2 i.unit.toNat * Nat.pow 10 (-k).toNat)
  let step := Nat.pow 10 k.toNat * Nat.pow 2 (-i.unit).toNat
  let below := scaled / step
  let above := below + 1
  match i.holds below k, i.holds above k with
  | false, false => none
  | true, false => some ⟨below, k⟩
  | false, true => some ⟨above, k⟩
  | true, true =>
    match compare (2 * scaled) ((below + above) * step), tie with
    | .lt, _ => some ⟨below, k⟩
    | .gt, _ => some ⟨above, k⟩
    | .eq, .up => some ⟨above, k⟩
    | .eq, .toEven => some ⟨if below % 2 = 0 then below else above, k⟩

/-- Whether `10 ^ p ≤ mantissa * 2 ^ exponent`. -/
def reaches (mantissa : Nat) (exponent : Int) (p : Int) : Bool :=
  decide (Nat.pow 10 p.toNat * Nat.pow 2 (-exponent).toNat ≤
    mantissa * Nat.pow 2 exponent.toNat * Nat.pow 10 (-p).toNat)

/-- The exponent of the leading digit of `mantissa * 2 ^ exponent`: the binary logarithm gives it up
to one step, and exact comparison decides. -/
def leadingExponent (mantissa : Nat) (exponent : Int) : Int :=
  let guess := (mantissa.log2 + exponent) * 30103 / 100000
  if reaches mantissa exponent (guess + 1) then guess + 1
  else if reaches mantissa exponent guess then guess
  else guess - 1

/-- The decimal equal to `mantissa * 2 ^ exponent`. -/
def exact (mantissa : Nat) : Int → Decimal
  | .ofNat e => ⟨mantissa * Nat.pow 2 e, 0⟩
  | .negSucc e => ⟨mantissa * Nat.pow 5 (e + 1), .negSucc e⟩

/-- A decimal with the fewest digits among those that round to the positive binary64 number
`mantissa * 2 ^ exponent`, and of those a nearest one. Seventeen digits always suffice. -/
def shortest (tie : Tie) (mantissa : Nat) (exponent : Int) : Decimal :=
  let leading := leadingExponent mantissa exponent
  let interval := Interval.of mantissa exponent
  ((List.range 17).findSome? fun (n : Nat) => interval.onGrid? tie (leading - n)).getD
    (exact mantissa exponent)

end AtomicStyle.Decimal
