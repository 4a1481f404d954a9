import PackExchange.Text.Hex

/-!
# Universally unique identifiers

A 128-bit identifier is held as its two 64-bit halves.

* `Uuid.text` — the hyphenated lower-case form, the only one ever written;
* `Uuid.parse?` — reads four forms in either letter case: hyphenated, 32 bare digits,
  hyphenated in braces, and hyphenated after `urn:uuid:`.
-/

namespace PackExchange

/-- A 128-bit identifier, as its upper and lower half. -/
structure Uuid where
  high : UInt64
  low : UInt64
  deriving DecidableEq, Repr, Inhabited, Hashable

namespace Uuid

/-- The identifier with all bits zero. -/
def nil : Uuid := ⟨0, 0⟩

/-- The 32 digits of an identifier. -/
def digits (u : Uuid) : List Char :=
  Hex.digits 16 u.high.toNat ++ Hex.digits 16 u.low.toNat

/-- Digits in groups of 8, 4, 4, 4 and 12, with hyphens between them. -/
def hyphenate (ds : List Char) : List Char :=
  ds.take 8 ++ '-' :: (ds.drop 8).take 4 ++ '-' :: (ds.drop 12).take 4 ++
    '-' :: (ds.drop 16).take 4 ++ '-' :: ds.drop 20

/-- The hyphenated lower-case form. -/
def text (u : Uuid) : String := String.ofList (hyphenate u.digits)

/-- An identifier from exactly 32 digits. -/
def ofDigits? (ds : List Char) : Option Uuid :=
  if ds.length = 32 then do
    let high ← Hex.number? (ds.take 16)
    let low ← Hex.number? (ds.drop 16)
    pure ⟨UInt64.ofNat high, UInt64.ofNat low⟩
  else none

/-- An identifier from the hyphenated form. -/
def ofHyphenated? (cs : List Char) : Option Uuid :=
  let ds := cs.filter (· ≠ '-')
  if cs = hyphenate ds then ofDigits? ds else none

/-- What may stand before the hyphenated form. -/
def urn : List Char := "urn:uuid:".toList

/-- Reads an identifier in any of its four forms. -/
def parse? (cs : List Char) : Option Uuid :=
  match cs.length with
  | 32 => ofDigits? cs
  | 36 => ofHyphenated? cs
  | 38 =>
    match cs with
    | '{' :: rest => if rest.getLast? = some '}' then ofHyphenated? rest.dropLast else none
    | _ => none
  | 45 => if (cs.take 9).map Char.toLower = urn then ofHyphenated? (cs.drop 9) else none
  | _ => none

end Uuid

end PackExchange
