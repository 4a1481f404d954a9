import PackExchange.Packet.Basic

/-!
# Protocol revisions

Two revisions are spoken.  Inside the program every packet has the form of the latest one; the
older one differs in the catalog and the load order, and has one packet more.

* `Revision.kinds` — the packets of a revision, in the order of their ids;
* `Revision.kind?` — the kind behind an id;
* `Revision.toLatest` and `Revision.ofLatest` — conversion of packets; a packet may convert
  to none.
-/

namespace PackExchange

/-- A protocol revision. -/
inductive Revision where
  | r712
  | r729
  deriving DecidableEq, Repr

namespace Revision

open Packet (Kind)

/-- The revision that packets have inside the program. -/
def latest : Revision := .r729

/-- The number a client announces. -/
def number : Revision → Int32
  | r712 => 712
  | r729 => 729

/-- The game version of a revision. -/
def gameVersion : Revision → String
  | r712 => "1.21.20"
  | r729 => "1.21.30"

/-- The revision with a number, if it is spoken. -/
def ofNumber? (n : Int32) : Option Revision :=
  if n = 712 then some r712 else if n = 729 then some r729 else none

/-! ### The packets of a revision -/

/-- The packets of a revision, in the order of their ids. -/
def kinds : Revision → List Kind
  | r712 => [.playStatus, .disconnect, .legacyCatalog, .legacyStack, .clientResponse, .tickSync,
      .mobEquipment, .packData, .chunkData, .chunkRequest, .networkSettings, .settingsRequest]
  | r729 => [.playStatus, .disconnect, .catalog, .stack, .clientResponse,
      .mobEquipment, .packData, .chunkData, .chunkRequest, .networkSettings, .settingsRequest]

/-- The kind behind an id. -/
def kind? (r : Revision) (id : UInt32) : Option Kind := r.kinds.find? fun kind => kind.id == id

/-- The listing of a revision's ids, for logs. -/
def listing (r : Revision) : String :=
  "Pool \x7b ids: [" ++ ", ".intercalate (r.kinds.map fun kind => toString kind.id) ++ "] \x7d"

/-! ### Conversion -/

/-- The catalog of the latest revision: behaviour packs first, each marked as an add-on. -/
def catalogToLatest (c : LegacyCatalog) : Catalog :=
  { required := c.required
    hasAddons := c.hasAddons || !c.behaviourPacks.isEmpty
    hasScripts := c.hasScripts
    packs := c.behaviourPacks.map (fun e => { e with addon := true }) ++ c.texturePacks }

/-- The catalog of the older revision: add-ons are its behaviour packs. -/
def catalogOfLatest (c : Catalog) : LegacyCatalog :=
  { required := c.required
    hasAddons := c.hasAddons
    hasScripts := c.hasScripts
    behaviourPacks := c.packs.filter (·.addon)
    texturePacks := c.packs.filter (!·.addon) }

/-- The load order of the latest revision: behaviour packs first. -/
def stackToLatest (s : LegacyPackStack) : PackStack :=
  { required := s.required
    packs := s.behaviourPacks ++ s.texturePacks
    gameVersion := s.gameVersion
    experiments := s.experiments
    experimentsToggled := s.experimentsToggled }

/-- The load order of the older revision.  Nothing says which entries are behaviour packs, so
all are listed as texture packs. -/
def stackOfLatest (s : PackStack) : LegacyPackStack :=
  { required := s.required
    texturePacks := s.packs
    gameVersion := s.gameVersion
    experiments := s.experiments
    experimentsToggled := s.experimentsToggled }

/-- A packet of a revision, in packets of the latest one. -/
def toLatest : Revision → Packet → List Packet
  | r712, .legacyCatalog c => [.catalog (catalogToLatest c)]
  | r712, .legacyStack s => [.stack (stackToLatest s)]
  | r712, .tickSync _ => []
  | _, p => [p]

/-- A packet of the latest revision, in packets of a revision. -/
def ofLatest : Revision → Packet → List Packet
  | r712, .catalog c => [.legacyCatalog (catalogOfLatest c)]
  | r712, .stack s => [.legacyStack (stackOfLatest s)]
  | _, p => [p]

end Revision

end PackExchange
