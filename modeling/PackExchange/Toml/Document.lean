import PackExchange.Toml.Draft
import PackExchange.Toml.Number

/-!
# Settings files

A file is a sequence of lines: headers of tables, keys with their values, and lines with nothing
but a comment.

* `Toml.key?` — a key, or keys joined by dots;
* `Toml.value?` — a value: a scalar, an array, or an inline table;
* `Toml.parse?` — the table that a whole file stands for, or nothing if the file is malformed.
-/

namespace PackExchange.Toml

/-- From this depth on values are not nested and keys are not joined. -/
def depthLimit : Nat := 80

/-! ### Keys -/

/-- A character of a key that stands without quotes. -/
def isBare (c : Char) : Bool := c.isAlphanum || c == '_' || c == '-'

/-- One key, in quotes or without. -/
def simpleKey? (cs : List Char) : Option (String × List Char) :=
  match cs with
  | '"' :: rest => basic? cs.length rest []
  | '\'' :: rest => literal? rest []
  | _ =>
    match cs.takeWhile isBare with
    | [] => none
    | bare => some (String.ofList bare, cs.dropWhile isBare)

/-- Keys joined by dots: the last one, and those before it, in front of those read already. -/
def dottedKey? : Nat → List String → List Char → Option (List String × String × List Char)
  | 0, _, _ => none
  | fuel + 1, before, cs => do
    let (key, cs) ← simpleKey? (skipBlanks cs)
    match skipBlanks cs with
    | '.' :: cs => dottedKey? fuel (key :: before) cs
    | cs => return (before.reverse, key, cs)

/-- A key: the keys that lead to its table, the key itself, and the rest. -/
def key? (cs : List Char) : Option (List String × String × List Char) :=
  dottedKey? (depthLimit - 1) [] cs

/-! ### Values -/

/-- The rest after a word. -/
def word? (w : String) (cs : List Char) : Option (List Char) :=
  if cs.take w.length = w.toList then some (cs.drop w.length) else none

/-- A value that holds no other values. -/
def scalar? (cs : List Char) : Option (Toml × List Char) :=
  match cs with
  | '"' :: _ | '\'' :: _ => (quoted? cs).map fun (s, rest) => (.text s, rest)
  | 't' :: _ => (word? "true" cs).map fun rest => (.boolean true, rest)
  | 'f' :: _ => (word? "false" cs).map fun rest => (.boolean false, rest)
  | _ =>
    match moment? cs with
    | some read => some read
    | none => number? cs

mutual

/-- A value at a depth. -/
def valueAt? : Nat → Nat → List Char → Option (Toml × List Char)
  | 0, _, _ => none
  | fuel + 1, depth, cs =>
    match cs with
    | '[' :: rest =>
      if depth + 1 < depthLimit then items? fuel (depth + 1) [] rest else none
    | '{' :: rest =>
      if depth + 1 < depthLimit then
        match skipBlanks rest with
        | '}' :: rest => some (.table [], rest)
        | rest => pairs? fuel (depth + 1) [] rest
      else none
    | _ => scalar? cs

/-- The values of an array up to its end, after those read already, last first.  A comma may stand
after the last one. -/
def items? : Nat → Nat → List Toml → List Char → Option (Toml × List Char)
  | 0, _, _, _ => none
  | fuel + 1, depth, read, cs =>
    match skipFiller (cs.length + 1) cs with
    | ']' :: rest => some (.array read.reverse, rest)
    | cs => do
      let (value, rest) ← valueAt? fuel depth cs
      match skipFiller (rest.length + 1) rest with
      | ',' :: rest => items? fuel depth (value :: read) rest
      | ']' :: rest => return (.array (value :: read).reverse, rest)
      | _ => none

/-- The keys and values of an inline table up to its end, with the table so far. -/
def pairs? : Nat → Nat → Draft.Entries → List Char → Option (Toml × List Char)
  | 0, _, _, _ => none
  | fuel + 1, depth, entries, cs => do
    let (path, key, rest) ← key? cs
    let rest ← after? '=' rest
    let (value, rest) ← valueAt? fuel depth (skipBlanks rest)
    let entries ← Draft.assign? path key (.leaf value) .header entries
    match skipBlanks rest with
    | ',' :: rest => pairs? fuel depth entries rest
    | '}' :: rest => return ((Draft.table .header entries).freeze, rest)
    | _ => none

end

/-- A value.  Each step into it and each step along it takes a character at least. -/
def value? (cs : List Char) : Option (Toml × List Char) := valueAt? (2 * cs.length + 2) 0 cs

/-! ### Lines -/

/-- A file that has been read in part: its table, and the path of the table whose lines follow. -/
structure Reading where
  root : Draft.Entries := []
  current : List String := []

/-- A line with a key and its value. -/
def Reading.assignment? (r : Reading) (cs : List Char) : Option (Reading × List Char) := do
  let (path, key, rest) ← key? cs
  let rest ← after? '=' rest
  let (value, rest) ← value? (skipBlanks rest)
  let rest ← endOfLine? rest
  let root ← Draft.within? false (Draft.assign? path key (.leaf value)) r.current .header r.root
  return ({ r with root := root }, rest)

/-- The header of a table; its bracket has been read. -/
def Reading.header? (r : Reading) (cs : List Char) : Option (Reading × List Char) := do
  let (path, key, rest) ← key? cs
  let rest ← after? ']' rest
  let rest ← endOfLine? rest
  let root ← Draft.define? path key r.root
  return ({ root := root, current := path ++ [key] }, rest)

/-- The header of one more table in a list; its brackets have been read. -/
def Reading.listHeader? (r : Reading) (cs : List Char) : Option (Reading × List Char) := do
  let (path, key, rest) ← key? cs
  let rest ← after? ']' rest
  let rest ← after? ']' rest
  let rest ← endOfLine? rest
  let root ← Draft.append? path key r.root
  return ({ root := root, current := path ++ [key] }, rest)

/-- One line. -/
def Reading.line? (r : Reading) (cs : List Char) : Option (Reading × List Char) :=
  match skipBlanks cs with
  | '[' :: '[' :: rest => r.listHeader? rest
  | '[' :: rest => r.header? rest
  | cs =>
    match endOfLine? cs with
    | some rest => some (r, rest)
    | none => r.assignment? cs

/-- All lines; every line but the last takes a character at least. -/
def Reading.lines? : Nat → Reading → List Char → Option Reading
  | _, r, [] => some r
  | 0, _, _ :: _ => none
  | fuel + 1, r, cs@(_ :: _) => do
    let (r, rest) ← r.line? cs
    lines? fuel r rest

/-- The entries of the table that a file stands for.  A byte order mark in front is skipped. -/
def parse? (file : String) : Option (List (String × Toml)) :=
  let cs :=
    match file.toList with
    | '\uFEFF' :: cs => cs
    | cs => cs
  (Reading.lines? cs.length {} cs).map fun r => Draft.freezeEntries r.root

end PackExchange.Toml
