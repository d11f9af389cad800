/-!
# Blanks, case and words

White space is meant in the sense of the Unicode property of that name, which has twenty-five
characters. Case is that of ASCII letters.
-/

namespace AtomicStyle.Text

/-- The characters with the property `White_Space`. -/
def isBlank (c : Char) : Bool :=
  let n := c.toNat
  (9 ≤ n && n ≤ 13) || n = 0x20 || n = 0x85 || n = 0xA0 || n = 0x1680 ||
    (0x2000 ≤ n && n ≤ 0x200A) || n = 0x2028 || n = 0x2029 || n = 0x202F || n = 0x205F ||
    n = 0x3000

def trimEnd (cs : List Char) : List Char := (cs.reverse.dropWhile isBlank).reverse

def trim (cs : List Char) : List Char := trimEnd (cs.dropWhile isBlank)

def lower (cs : List Char) : List Char := cs.map Char.toLower

/-- The non-empty stretches between separators. -/
def words (isSeparator : Char → Bool) : List Char → List (List Char)
  | [] => []
  | c :: cs =>
    if isSeparator c then words isSeparator cs
    else
      match cs, words isSeparator cs with
      | d :: _, w :: ws => if isSeparator d then [c] :: w :: ws else (c :: w) :: ws
      | _, ws => [c] :: ws

/-- The text before a given end, if it has that end. -/
def dropEnd? (ending cs : List Char) : Option (List Char) :=
  if ending.isSuffixOf cs then some (cs.take (cs.length - ending.length)) else none

/-- What becomes of a text whose last bytes are cut off. -/
inductive Cut where
  /-- The text has fewer bytes. -/
  | short
  /-- The cut would go through a character. -/
  | inside
  | apart (front back : List Char)

/-- Takes `bytes` bytes from the end of a text given from its end, in front of `back`. -/
def cutBack : Nat → List Char → List Char → Cut
  | 0, text, back => .apart text.reverse back
  | _ + 1, [], _ => .short
  | bytes + 1, c :: text, back =>
    if c.utf8Size ≤ bytes + 1 then cutBack (bytes + 1 - c.utf8Size) text (c :: back) else .inside

/-- Cuts the last `bytes` bytes of the UTF-8 form off a text. -/
def cutEnd (bytes : Nat) (cs : List Char) : Cut := cutBack bytes cs.reverse []

end AtomicStyle.Text
