import SecureElement.Text.Unseen

/-!
# Text in quotes

Text that is shown for diagnosis stands between quotes. The quote itself and the
backslash are escaped, four controls have a letter of their own, and every other
character that cannot be seen by itself is spelled out as its code point.
-/

namespace SecureElement.Text

/-- The characters that stand for one character between the given quotes. -/
def quoteChar (quote c : Char) : List Char :=
  if c = quote ∨ c = '\\' then ['\\', c]
  else if c = '\x00' then ['\\', '0']
  else if c = '\t' then ['\\', 't']
  else if c = '\n' then ['\\', 'n']
  else if c = '\r' then ['\\', 'r']
  else if isUnseen c then ['\\', 'u', '\x7b'] ++ Nat.toDigits 16 c.toNat ++ ['\x7d']
  else [c]

/-- A text between double quotes. -/
def quoted (text : String) : String :=
  String.ofList (['"'] ++ text.toList.flatMap (quoteChar '"') ++ ['"'])

/-- A character between single quotes. -/
def quotedChar (c : Char) : String := String.ofList (['\''] ++ quoteChar '\'' c ++ ['\''])

end SecureElement.Text
