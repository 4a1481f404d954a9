import PackExchange.Text.Hex

/-!
# Text in a settings file

Blanks, line ends, comments, and text in quotes.  What is read is the front of a list of
characters; every reader returns what it read and the rest, or nothing.

* `Toml.skipBlanks`, `Toml.lineEnd?`, `Toml.skipComment?` — between the values;
* `Toml.basic?` and `Toml.literal?` — text on one line, with and without escapes;
* `Toml.quoted?` — any text in quotes, also over several lines.
-/

namespace PackExchange.Toml

/-! ### Between the values -/

/-- A space or a tab. -/
def isBlank (c : Char) : Bool := c == ' ' || c == '\t'

/-- A character that may stand in a comment or in text: no control character but the tab. -/
def isPlain (c : Char) : Bool := c == '\t' || (' ' ≤ c && c != '\x7f')

/-- The rest after blanks. -/
def skipBlanks (cs : List Char) : List Char := cs.dropWhile isBlank

/-- The rest after the end of a line. -/
def lineEnd? : List Char → Option (List Char)
  | '\n' :: cs => some cs
  | '\r' :: '\n' :: cs => some cs
  | _ => none

/-- The rest after a comment, if there is one; it begins with the end of the line. -/
def skipComment : List Char → List Char
  | '#' :: cs => cs.dropWhile isPlain
  | cs => cs

/-- The rest of the file after the end of a line, before which only blanks and a comment may
stand; the end of the file ends a line as well. -/
def endOfLine? (cs : List Char) : Option (List Char) :=
  match skipComment (skipBlanks cs) with
  | [] => some []
  | cs => lineEnd? cs

/-- The rest after blanks and line ends. -/
def skipSpace : Nat → List Char → List Char
  | 0, cs => cs
  | fuel + 1, cs =>
    match lineEnd? cs with
    | some cs => skipSpace fuel cs
    | none =>
      match cs with
      | c :: rest => if isBlank c then skipSpace fuel rest else cs
      | [] => []

/-- The rest after blanks, line ends and comments. -/
def skipFiller : Nat → List Char → List Char
  | 0, cs => cs
  | fuel + 1, cs =>
    match skipSpace cs.length cs with
    | '#' :: rest => skipFiller fuel (rest.dropWhile isPlain)
    | cs => cs

/-! ### Escapes -/

/-- The character of a code point in hexadecimal digits. -/
def codePoint? (width : Nat) (cs : List Char) : Option (Char × List Char) :=
  let digits := cs.take width
  if digits.length < width then none
  else do
    let n ← Hex.number? digits
    if n.isValidChar then some (Char.ofNat n, cs.drop width) else none

/-- The character that an escape stands for; the backslash has been read. -/
def escape? : List Char → Option (Char × List Char)
  | 'b' :: cs => some ('\x08', cs)
  | 't' :: cs => some ('\t', cs)
  | 'n' :: cs => some ('\n', cs)
  | 'f' :: cs => some ('\x0c', cs)
  | 'r' :: cs => some ('\r', cs)
  | '"' :: cs => some ('"', cs)
  | '\\' :: cs => some ('\\', cs)
  | 'u' :: cs => codePoint? 4 cs
  | 'U' :: cs => codePoint? 8 cs
  | _ => none

/-! ### Text in quotes -/

/-- The text that characters spell, which were read last first. -/
def spell (read : List Char) : String := String.ofList read.reverse

/-- The text up to a double quote on the same line. -/
def basic? : Nat → List Char → List Char → Option (String × List Char)
  | 0, _, _ => none
  | _ + 1, '"' :: cs, read => some (spell read, cs)
  | fuel + 1, '\\' :: cs, read => do
    let (c, cs) ← escape? cs
    basic? fuel cs (c :: read)
  | fuel + 1, c :: cs, read => if isPlain c then basic? fuel cs (c :: read) else none
  | _, [], _ => none

/-- The text up to a single quote on the same line; nothing is escaped. -/
def literal? : List Char → List Char → Option (String × List Char)
  | '\'' :: cs, read => some (spell read, cs)
  | c :: cs, read => if isPlain c then literal? cs (c :: read) else none
  | [], _ => none

/-- The text up to three quotes.  One or two quotes may stand in the text, also right before the
end; a line end is one line feed.  With escapes, a backslash at the end of a line joins it with
the next text. -/
def long? (quote : Char) (escapes : Bool) :
    Nat → List Char → List Char → Option (String × List Char)
  | 0, _, _ => none
  | fuel + 1, cs, read =>
    match lineEnd? cs with
    | some cs => long? quote escapes fuel cs ('\n' :: read)
    | none =>
      match cs with
      | [] => none
      | c :: rest =>
        if c == quote then
          let quotes := cs.takeWhile (· == quote)
          let after := cs.dropWhile (· == quote)
          if quotes.length < 3 then long? quote escapes fuel after (quotes ++ read)
          else if quotes.length ≤ 5 then some (spell (quotes.drop 3 ++ read), after)
          else none
        else if escapes && c == '\\' then
          match lineEnd? (skipBlanks rest) with
          | some rest => long? quote escapes fuel (skipSpace rest.length rest) read
          | none =>
            match escape? rest with
            | some (c, rest) => long? quote escapes fuel rest (c :: read)
            | none => none
        else if isPlain c then long? quote escapes fuel rest (c :: read)
        else none

/-- The line end right after the opening quotes is no part of the text. -/
def skipFirstLineEnd (cs : List Char) : List Char := (lineEnd? cs).getD cs

/-- Text in quotes of any kind. -/
def quoted? (cs : List Char) : Option (String × List Char) :=
  let fuel := cs.length + 1
  match cs with
  | '"' :: '"' :: '"' :: cs => long? '"' true fuel (skipFirstLineEnd cs) []
  | '\'' :: '\'' :: '\'' :: cs => long? '\'' false fuel (skipFirstLineEnd cs) []
  | '"' :: cs => basic? fuel cs []
  | '\'' :: cs => literal? cs []
  | _ => none

end PackExchange.Toml
