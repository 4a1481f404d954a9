import PackExchange.Uuid

/-!
# Pack identities

A pack is named by an identifier and a version.

* `PackId.token` — the `uuid_version` text that names a pack on the wire;
* `PackId.parse?` — reads a token; a missing version is the empty one;
* `PackId.uuidOf?` — the identifier a token names, whatever its version;
* `PackId.exempted` — packs every client has, which are never transferred.

Tokens are cut at the first underscore, so versions may hold underscores and identifiers
never do.
-/

namespace PackExchange

/-- The identity of a pack. -/
structure PackId where
  uuid : Uuid
  version : String
  deriving DecidableEq, Repr, Inhabited

namespace PackId

/-- The text that names a pack on the wire. -/
def token (id : PackId) : String := id.uuid.text ++ "_" ++ id.version

/-- The text that names a pack to a reader. -/
def label (id : PackId) : String := id.uuid.text ++ " v" ++ id.version

/-- The text before the first underscore and the text after it. -/
def cut (cs : List Char) : List Char × List Char :=
  (cs.takeWhile (· ≠ '_'), (cs.dropWhile (· ≠ '_')).drop 1)

/-- Reads a token; without an underscore the version is empty. -/
def parse? (s : String) : Option PackId := do
  let (head, version) := cut s.toList
  let uuid ← Uuid.parse? head
  pure ⟨uuid, String.ofList version⟩

/-- The identifier a reference names: a bare identifier or a token. -/
def uuidOf? (s : String) : Option Uuid := Uuid.parse? (cut s.toList).1

/-- Packs that every client has installed. -/
def exempted : List PackId :=
  [⟨⟨0x0fba4063dba14281, 0x9b89ff9390653530⟩, "1.0.0"⟩]

/-- Is the pack one that every client has? -/
def isExempted (id : PackId) : Bool := exempted.contains id

end PackId

end PackExchange
