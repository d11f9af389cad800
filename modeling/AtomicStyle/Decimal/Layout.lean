import AtomicStyle.Decimal.Shortest

/-!
# Writing a number

The digits of a number are those of its shortest decimal. How they are laid out, with a point and
zeros or with a power of ten, is left to a `Layout`, of which this library has two: the plain one of
style sheets and messages, and the one of JSON documents.
-/

namespace AtomicStyle.Decimal

/-- What a written number still has to decide once its digits are known. -/
structure Layout where
  tie : Tie
  /-- The exponents of the leading digit that are written without a power of ten. -/
  positional : Int → Bool
  /-- Whether a whole number is written with `.0`. -/
  pointZero : Bool

/-- Numbers in style values and messages: never a power of ten, and no point in a whole number. -/
def plain : Layout where
  tie := .up
  positional _ := true
  pointZero := false

/-- Numbers in JSON documents: always a point or a power of ten, and a power of ten from `10 ^ 16`
on and below `10 ^ -5`. -/
def document : Layout where
  tie := .toEven
  positional e := decide (-5 ≤ e) && decide (e < 16)
  pointZero := true

def digits (n : Nat) : List Char := Nat.toDigits 10 n

def stripZeros (ds : List Char) : List Char :=
  (ds.reverse.dropWhile (· = '0')).reverse

/-- The written form of the digits `ds`, the first of which stands for `10 ^ leading`. -/
def Layout.place (l : Layout) (ds : List Char) (leading : Int) : List Char :=
  if l.positional leading then
    match leading with
    | .negSucc e => '0' :: '.' :: (List.replicate e '0' ++ ds)
    | .ofNat e =>
      match ds.drop (e + 1) with
      | [] => ds ++ List.replicate (e + 1 - ds.length) '0' ++ if l.pointZero then ['.', '0'] else []
      | fraction => ds.take (e + 1) ++ '.' :: fraction
  else
    let tail := 'e' :: (if leading < 0 then '-' else '+') :: digits leading.natAbs
    match ds with
    | [] => tail
    | [d] => d :: tail
    | d :: fraction => d :: '.' :: (fraction ++ tail)

/-- The written form of the positive number `mantissa * 2 ^ exponent`. -/
def Layout.positive (l : Layout) (mantissa : Nat) (exponent : Int) : List Char :=
  let d := shortest l.tie mantissa exponent
  let ds := digits d.coefficient
  l.place (stripZeros ds) (d.exponent + (ds.length : Int) - 1)

def signed (sign : Float.Model.UnpackedFloat.Sign) (text : List Char) : List Char :=
  if Parts.isNegative sign then '-' :: text else text

/-- The written form of any number; what is not finite is written `NaN`, `inf` or `-inf`. -/
def Layout.chars (l : Layout) (x : Float) : List Char :=
  match Parts.ofFloat x with
  | .notANumber => ['N', 'a', 'N']
  | .infinity sign => signed sign ['i', 'n', 'f']
  | .zero sign => signed sign ('0' :: if l.pointZero then ['.', '0'] else [])
  | .finite sign mantissa exponent _ => signed sign (l.positive mantissa exponent)

def Layout.render (l : Layout) (x : Float) : String := String.ofList (l.chars x)

end AtomicStyle.Decimal
