import LiveCache.Text.Quoted

/-!
# Strings in JSON

The shortest usual form of a JSON string: only a quote, a backslash and the control characters below
the space are escaped, by a letter where there is one and else by four hexadecimal digits.
-/

namespace LiveCache.Text

def fourDigits (n : Nat) : String :=
  let digits := hex n
  String.ofList (List.replicate (4 - digits.length) '0') ++ digits

def jsonChar (c : Char) : String :=
  if c = '"' then "\\\""
  else if c = '\\' then "\\\\"
  else if c = '\x08' then "\\b"
  else if c = '\t' then "\\t"
  else if c = '\n' then "\\n"
  else if c = '\x0c' then "\\f"
  else if c = '\r' then "\\r"
  else if c.toNat < 32 then "\\u" ++ fourDigits c.toNat
  else c.toString

def json (s : String) : String := "\"" ++ String.join (s.toList.map jsonChar) ++ "\""

end LiveCache.Text
