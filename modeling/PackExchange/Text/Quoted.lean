import PackExchange.Text.Hex
import PackExchange.Text.Invisible

/-!
# Quoted text

Text that a peer sent is put in quotes before it is shown in a message.

* `Text.quoted` — the text in quotes, with the quote, the backslash and everything that has no
  form of its own written as an escape.

Line feed, carriage return, tabulator and the zero character have letters of their own; other
invisible characters are written by their code point in braces.
-/

namespace PackExchange.Text

/-- The form of a character between quotes. -/
def escape (c : Char) : List Char :=
  if c = '"' ∨ c = '\\' then ['\\', c]
  else if c = '\n' then ['\\', 'n']
  else if c = '\r' then ['\\', 'r']
  else if c = '\t' then ['\\', 't']
  else if c = Char.ofNat 0 then ['\\', '0']
  else if isInvisible c then
    '\\' :: 'u' :: Char.ofNat 0x7b :: Hex.numeral c.toNat ++ [Char.ofNat 0x7d]
  else [c]

/-- A text in quotes. -/
def quoted (s : String) : String :=
  String.ofList ('"' :: s.toList.flatMap escape ++ ['"'])

end PackExchange.Text
