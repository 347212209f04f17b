import Gateway.Text.Digits
import Gateway.Text.Hidden
/-!
# Quoted texts in messages

A message that mentions a text from outside shows it between double quotes. Inside, a quote and a
backslash are preceded by a backslash, the common controls have their letters, and every other
character that does not show is written by its code point, so that the message stays on one line
and two different texts never look alike.
-/

namespace Gateway.Text

/-- The form of one character inside a quoted text. -/
def quoteChar (c : Char) : List Char :=
  if c = '"' then ['\\', '"']
  else if c = '\\' then ['\\', '\\']
  else if c = '\t' then ['\\', 't']
  else if c = '\n' then ['\\', 'n']
  else if c = '\r' then ['\\', 'r']
  else if c.toNat = 0 then ['\\', '0']
  else if isHidden c then ['\\', 'u', '{'] ++ hex c.toNat ++ ['}']
  else [c]

/-- A text between double quotes. -/
def quoted (s : String) : String :=
  String.ofList (['"'] ++ s.toList.flatMap quoteChar ++ ['"'])

end Gateway.Text
