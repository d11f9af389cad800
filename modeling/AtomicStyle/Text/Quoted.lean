import AtomicStyle.Text.Shown

/-!
# Texts in messages

A message puts a text in double quotes. Characters that would not show, that join to the one before
them or that have a meaning inside quotes are escaped.
-/

namespace AtomicStyle.Text

def messageEscape (c : Char) : List Char :=
  if c = '\x00' then ['\\', '0']
  else if c = '\t' then ['\\', 't']
  else if c = '\n' then ['\\', 'n']
  else if c = '\r' then ['\\', 'r']
  else if c = '"' ∨ c = '\\' then ['\\', c]
  else if isShown c then [c]
  else ['\\', 'u', '\x7b'] ++ Nat.toDigits 16 c.toNat ++ ['\x7d']

/-- A text in quotes as messages hold it. -/
def messageQuoted (s : String) : String :=
  "\"" ++ String.ofList (s.toList.flatMap messageEscape) ++ "\""

end AtomicStyle.Text
