import LiveCache.Text.Printable

/-!
# Quoted text

A string between double quotes. A quote, a backslash and the common control characters are written
with a backslash, a character without a glyph of its own by its code point, all else as it is.
-/

namespace LiveCache.Text

/-- Hexadecimal digits in lower case, most significant first, without leading zeros. -/
def hex (n : Nat) : String := String.ofList (Nat.toDigits 16 n)

def escapeChar (c : Char) : String :=
  if c = '"' then "\\\""
  else if c = '\\' then "\\\\"
  else if c = '\n' then "\\n"
  else if c = '\t' then "\\t"
  else if c = '\r' then "\\r"
  else if c = '\x00' then "\\0"
  else if isPrintable c then c.toString
  else "\\u\x7b" ++ hex c.toNat ++ "\x7d"

def quoted (s : String) : String :=
  "\"" ++ String.join (s.toList.map escapeChar) ++ "\""

end LiveCache.Text
