import Ascription.Text.Invisible

/-!
# Text/Quoted — text between double quotes

Quoted text shows each character on its own: quotes and backslashes behind a backslash, the common
control characters by a letter, and every other character that would not be seen by its number.
-/

namespace Ascription

namespace Quoted

/-- The hexadecimal digits of `n`, in lower case. -/
def hex (n : Nat) : List Char := Nat.toDigits 16 n

/-- One character inside the quotes. -/
def escape (c : Char) : List Char :=
  if c = '\"' then ['\\', '\"']
  else if c = '\\' then ['\\', '\\']
  else if c = '\t' then ['\\', 't']
  else if c = '\r' then ['\\', 'r']
  else if c = '\n' then ['\\', 'n']
  else if c.toNat = 0 then ['\\', '0']
  else if isInvisible c then '\\' :: 'u' :: '\x7b' :: (hex c.toNat ++ ['\x7d'])
  else [c]

end Quoted

/-- **Text between double quotes**, each character escaped where it has to be. -/
def quoted (s : String) : String :=
  String.ofList ('\"' :: (s.toList.flatMap Quoted.escape ++ ['\"']))

end Ascription
