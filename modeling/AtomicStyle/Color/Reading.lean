import AtomicStyle.Color.Model
import AtomicStyle.Color.Named
import AtomicStyle.Decimal.Numeral
import AtomicStyle.Text.Blank

/-!
# Reading colours

A colour may be given by hexadecimal digits with or without `#`, by a name, or by one of six
functions with three or four arguments. `Color.parse` says for each text which colour it is, or what
is wrong with it; `Failure.splitCharacter` is the one text that no answer exists for, because the
unit of an angle is looked for by cutting bytes off the end, and the cut may go through a character.
-/

namespace AtomicStyle

/-- What is wrong with a text that is no colour. -/
inductive Color.Flaw where
  | hex
  | function
  | rgb
  | hsl
  | hwb
  | hsv
  | oklab
  | oklch
  | unknown
deriving DecidableEq, Repr

def Color.Flaw.message : Color.Flaw → String
  | hex => "invalid hex format"
  | function => "invalid color function"
  | rgb => "invalid rgb format"
  | hsl => "invalid hsl format"
  | hwb => "invalid hwb format"
  | hsv => "invalid hsv format"
  | oklab => "invalid oklab format"
  | oklch => "invalid oklch format"
  | unknown => "invalid unknown format"

/-- A text that is no colour, and why. -/
structure ColorError where
  input : String
  flaw : Color.Flaw
deriving DecidableEq, Repr

def ColorError.message (e : ColorError) : String :=
  "cannot parse '" ++ e.input ++ "' as a color: " ++ e.flaw.message

namespace Color

/-- Why there is no colour for a text. -/
inductive Failure where
  | rejected (error : ColorError)
  /-- The unit of an angle would begin inside a character: reading stops without an answer. -/
  | splitCharacter
deriving DecidableEq, Repr

section Hex

def hexValue? (c : Char) : Option Nat :=
  if c.isDigit then some (c.toNat - 48)
  else if 'a' ≤ c ∧ c ≤ 'f' then some (c.toNat - 87)
  else if 'A' ≤ c ∧ c ≤ 'F' then some (c.toNat - 55)
  else none

/-- A byte from two characters: two digits, or one after a plus sign. -/
def byte? (high low : Char) : Option UInt8 := do
  let l ← hexValue? low
  if high = '+' then some (UInt8.ofNat l)
  else
    let h ← hexValue? high
    some (UInt8.ofNat (16 * h + l))

/-- A byte from one digit, which stands for both. -/
def doubled? (c : Char) : Option UInt8 := (hexValue? c).map fun n => UInt8.ofNat (17 * n)

/-- A colour of three or four bytes, the fourth being the opacity. -/
def ofBytes (red green blue alpha : UInt8) : Color :=
  ⟨red, green, blue, Float.ofNat alpha.toNat / 255⟩

/-- A colour from hexadecimal digits alone: one or two for each channel, with opacity or without. -/
def ofHex? : List Char → Option Color
  | [r, g, b] => do return ofBytes (← doubled? r) (← doubled? g) (← doubled? b) 255
  | [r, g, b, a] => do
    return ofBytes (← doubled? r) (← doubled? g) (← doubled? b) (← doubled? a)
  | [r, r', g, g', b, b'] => do
    return ofBytes (← byte? r r') (← byte? g g') (← byte? b b') 255
  | [r, r', g, g', b, b', a, a'] => do
    return ofBytes (← byte? r r') (← byte? g g') (← byte? b b') (← byte? a a')
  | _ => none

end Hex

section Functions

/-- A number, or a percentage as a share of one with a mark that it was one. -/
def quantity? (cs : List Char) : Option (Float32 × Bool) :=
  let percent := do
    let body ← Text.dropEnd? ['%'] cs
    let x ← Numeral.float32? body
    return (x / 100, true)
  percent <|> (Numeral.float32? cs).map (·, false)

/-- The units of angles, in the order in which they are tried, with the degrees that `x` of them
make. -/
def angleUnits : List (List Char × (Float32 → Float32)) :=
  [(['d', 'e', 'g'], fun x => x),
    (['g', 'r', 'a', 'd'], fun x => x * 360 / 400),
    (['r', 'a', 'd'], fun x => x * 57.2957795130823208767981548141051703),
    (['t', 'u', 'r', 'n'], fun x => x * 360)]

/-- An angle in degrees from a number with a unit among `units`, or else from a bare number. The
unit is looked for in as many bytes at the end as it has itself; a cut through a character fails. -/
def angleWith : List (List Char × (Float32 → Float32)) → List Char →
    Except Failure (Option Float32)
  | [], cs => .ok (Numeral.float32? cs)
  | (name, degrees) :: units, cs =>
    match Text.cutEnd name.length cs with
    | .short => angleWith units cs
    | .inside => .error .splitCharacter
    | .apart front back =>
      if Text.lower back = name then
        match Numeral.float32? front with
        | some x => .ok (some (degrees x))
        | none => angleWith units cs
      else angleWith units cs

def angle? (cs : List Char) : Except Failure (Option Float32) := angleWith angleUnits cs

structure Arguments where
  first : List Char
  second : List Char
  third : List Char
  alpha : Float32

/-- The arguments between the brackets: three values, and an opacity if there is a fourth. -/
def arguments? (body : List Char) : Option Arguments :=
  let isSeparator (c : Char) : Bool :=
    c ∈ [',', '/', ' ', '\t', '\n', '\x0c', '\r']
  match Text.words isSeparator body with
  | [x, y, z] => some ⟨x, y, z, 1⟩
  | [x, y, z, a] => (quantity? a).map fun q => ⟨x, y, z, clamp 0 1 q.1⟩
  | _ => none

def share (x : Float32) : Float32 := clamp 0 1 x

/-- Three quantities of one kind; plain numbers are out of 255. -/
def rgbShares? (a : Arguments) : Option Shares := do
  let (r, rp) ← quantity? a.first
  let (g, gp) ← quantity? a.second
  let (b, bp) ← quantity? a.third
  if rp = gp ∧ gp = bp then
    let scale (x : Float32) : Float32 := share (if rp then x else x / 255)
    some ⟨scale r, scale g, scale b⟩
  else none

/-- An angle and two shares of one kind, put together by `model`. -/
def hueShares? (model : Float32 → Float32 → Float32 → Shares) (a : Arguments) :
    Except Failure (Option Shares) := do
  let h ← angle? a.first
  return do
    let h ← h
    let (x, xp) ← quantity? a.second
    let (y, yp) ← quantity? a.third
    if xp = yp then some (model (hue h) (share x) (share y)) else none

/-- Lightness and two axes; a percentage runs over the range from -0.4 to 0.4. -/
def oklabShares? (a : Arguments) : Option Shares := do
  let axis (q : Float32 × Bool) : Float32 :=
    if q.2 then (q.1 + 1) * (0.8 / 2) - 0.4 else q.1
  let (l, _) ← quantity? a.first
  let x ← quantity? a.second
  let y ← quantity? a.third
  some (ofOklab (maxNumber l 0) (axis x) (axis y))

/-- Lightness, chroma and hue; a percentage of chroma is one of 0.4. -/
def oklchShares? (a : Arguments) : Except Failure (Option Shares) := do
  let h ← angle? a.third
  return do
    let (l, _) ← quantity? a.first
    let (c, cp) ← quantity? a.second
    let h ← h
    let c := if cp then c * 0.4 else c
    let radians := h * 0.0174532925199432957692369076848861271344287
    some (ofOklch (maxNumber l 0) (maxNumber c 0) radians)

/-- The shares that a function's name and arguments stand for; the name is in lower case. -/
def functionShares (name : List Char) (a : Arguments) :
    Except Failure (Except Flaw Shares) := do
  let or (flaw : Flaw) : Option Shares → Except Flaw Shares
    | some s => .ok s
    | none => .error flaw
  match String.ofList name with
  | "rgb" | "rgba" => return or .rgb (rgbShares? a)
  | "hsl" | "hsla" => return or .hsl (← hueShares? ofHsl a)
  | "hwb" | "hwba" => return or .hwb (← hueShares? ofHwb a)
  | "hsv" | "hsva" => return or .hsv (← hueShares? ofHsv a)
  | "oklab" => return or .oklab (oklabShares? a)
  | "oklch" => return or .oklch (← oklchShares? a)
  | _ => return .error .function

def ofFunction (name body : List Char) : Except Failure (Except Flaw Color) :=
  match arguments? body with
  | none => .ok (.error .function)
  | some a => do return (← functionShares name a).map fun s => ofShares s a.alpha

end Functions

/-- Takes a function call apart: what stands before the first opening bracket, and from there to a
closing bracket that must be the last character. -/
def call? (cs : List Char) : Option (List Char × List Char) :=
  match cs.span (· ≠ '('), cs.getLast? with
  | (name, _ :: body), some ')' => some (name, body.dropLast)
  | _, _ => none

def readTrimmed (cs : List Char) : Except Failure (Except Flaw Color) :=
  if Text.lower cs = "transparent".toList then .ok (.ok ⟨0, 0, 0, 0⟩)
  else
    match cs with
    | '#' :: digits => .ok ((ofHex? digits).elim (.error .hex) .ok)
    | _ =>
      match call? cs with
      | some (name, body) => ofFunction (Text.lower (Text.trimEnd name)) body
      | none =>
        match ofHex? cs with
        | some c => .ok (.ok c)
        | none => .ok ((channelsOf? (Text.lower cs)).elim (.error .unknown) (.ok ∘ Color.ofNat))

/-- The colour that a text stands for, or why there is none. -/
def parse (input : String) : Except Failure Color :=
  match readTrimmed (Text.trim input.toList) with
  | .error e => .error e
  | .ok (.error flaw) => .error (.rejected ⟨input, flaw⟩)
  | .ok (.ok c) => .ok c

end Color

end AtomicStyle
