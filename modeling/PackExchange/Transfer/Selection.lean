import PackExchange.Packet.Body
import PackExchange.PackId

/-!
# Choosing from a catalog

A client goes through a catalog from left to right and decides for each entry whether it wants
the pack.

* `Verdict` and `Selection.judge` — what is decided about an entry, given those wanted before it;
* `Selection.step` — what becomes of the lists with one entry;
* `Selection.ofCatalog` — the packs that are wanted, those that the client's filter turned down,
  and the calls of the filter.
-/

namespace PackExchange

/-- Decides about a pack, given its place in the catalog and the length of the catalog. -/
abbrev DownloadFilter := PackId → Nat → Nat → Bool

/-- One call of a download filter. -/
structure Consultation where
  id : PackId
  index : Nat
  total : Nat
  deriving DecidableEq, Repr

/-- A pack that the client wants and that was not announced yet. -/
structure Wanted where
  id : PackId
  size : UInt64
  contentKey : String
  deriving DecidableEq, Repr

/-- What is decided about a catalog entry. -/
inductive Verdict where
  /-- A pack with the same identifier is wanted already. -/
  | duplicate
  /-- Every client has the pack. -/
  | exempted
  /-- The filter turned the pack down. -/
  | rejected
  | wanted
  deriving DecidableEq, Repr

/-- The identity of the pack in a catalog entry. -/
def CatalogEntry.id (e : CatalogEntry) : PackId := ⟨e.uuid, e.version⟩

/-- The outcome of going through a catalog. -/
structure Selection where
  /-- How many packs are to be downloaded: at first all of the catalog. -/
  remaining : Nat := 0
  wanted : List Wanted := []
  ignored : List PackId := []
  consulted : List Consultation := []
  deriving DecidableEq, Repr

namespace Selection

/-- Decides about an entry, given the packs wanted so far.  The filter has the last word and is
asked only if nothing else decides. -/
def judge (filter : Option DownloadFilter) (total : Nat) (wanted : List Wanted) (index : Nat)
    (e : CatalogEntry) : Verdict :=
  if wanted.any (·.id.uuid == e.uuid) then .duplicate
  else if e.id.isExempted then .exempted
  else
    match filter with
    | none => .wanted
    | some accepts => if accepts e.id index total then .wanted else .rejected

/-- The call of the filter that a verdict rests on. -/
def consultations (filter : Option DownloadFilter) (total index : Nat) (e : CatalogEntry) :
    Verdict → List Consultation
  | .duplicate | .exempted => []
  | .rejected | .wanted => if filter.isSome then [⟨e.id, index, total⟩] else []

/-- Goes on by one entry; all lists have their latest element first. -/
def step (filter : Option DownloadFilter) (total index : Nat) (e : CatalogEntry) (s : Selection) :
    Selection :=
  let verdict := judge filter total s.wanted index e
  let consulted := consultations filter total index e verdict ++ s.consulted
  match verdict with
  | .duplicate | .exempted => { s with remaining := s.remaining - 1 }
  | .rejected =>
    { s with
      remaining := s.remaining - 1
      ignored := e.id :: s.ignored
      consulted := consulted }
  | .wanted =>
    { s with wanted := ⟨e.id, e.size, e.contentKey⟩ :: s.wanted, consulted := consulted }

/-- Goes on through the catalog. -/
def collect (filter : Option DownloadFilter) (total : Nat) :
    Nat → List CatalogEntry → Selection → Selection
  | _, [], s => s
  | index, e :: entries, s => collect filter total (index + 1) entries (step filter total index e s)

/-- Goes through a catalog from left to right. -/
def ofCatalog (filter : Option DownloadFilter) (entries : List CatalogEntry) : Selection :=
  let s := collect filter entries.length 0 entries { remaining := entries.length }
  { remaining := s.remaining
    wanted := s.wanted.reverse
    ignored := s.ignored.reverse
    consulted := s.consulted.reverse }

end Selection

end PackExchange
