import PackExchange.Wire.Scalar

/-!
# What packets carry

One structure for each kind of packet, in the order of a session: agreeing on settings, offering
packs, transferring them, and the little of the game itself that a session may meet.  Every
field has a default, which is what a freshly made packet holds.
-/

namespace PackExchange

/-! ### Setting a session up -/

/-- The first packet of a client: the protocol revision it speaks. -/
structure SettingsRequest where
  protocol : Int32 := 0
  deriving DecidableEq, Repr, Inhabited

/-- The settings both sides use from now on. -/
structure NetworkSettings where
  compressionThreshold : UInt16 := 0
  compressionAlgorithm : UInt16 := 0
  throttle : Bool := false
  throttleThreshold : UInt8 := 0
  throttleScalar : Binary32 := ⟨0⟩
  deriving DecidableEq, Repr, Inhabited

/-- How far a client has come, as the server sees it. -/
structure PlayStatus where
  status : Int32 := 0
  deriving DecidableEq, Repr, Inhabited

namespace PlayStatus

def loginSuccess : PlayStatus := ⟨0⟩
/-- The client is older than the server. -/
def loginFailedClient : PlayStatus := ⟨1⟩
/-- The server is older than the client. -/
def loginFailedServer : PlayStatus := ⟨2⟩
def playerSpawn : PlayStatus := ⟨3⟩

end PlayStatus

/-- The end of a session.  The messages travel only if the screen is shown. -/
structure Disconnect where
  reason : Int32 := 0
  hideScreen : Bool := false
  message : String := ""
  filteredMessage : String := ""
  deriving DecidableEq, Repr, Inhabited

/-! ### Offering packs -/

/-- A pack in the catalog. -/
structure CatalogEntry where
  uuid : Uuid := .nil
  version : String := ""
  size : UInt64 := 0
  contentKey : String := ""
  subPackName : String := ""
  contentIdentity : String := ""
  hasScripts : Bool := false
  addon : Bool := false
  rtxEnabled : Bool := false
  downloadUrl : String := ""
  deriving DecidableEq, Repr, Inhabited

/-- The catalog: every pack the server wants the client to have. -/
structure Catalog where
  required : Bool := false
  hasAddons : Bool := false
  hasScripts : Bool := false
  worldTemplateUuid : Uuid := .nil
  worldTemplateVersion : String := ""
  packs : List CatalogEntry := []
  deriving DecidableEq, Repr, Inhabited

/-- The catalog of the older revision, with behaviour packs in a list of their own. -/
structure LegacyCatalog where
  required : Bool := false
  hasAddons : Bool := false
  hasScripts : Bool := false
  forcingServerPacks : Bool := false
  behaviourPacks : List CatalogEntry := []
  texturePacks : List CatalogEntry := []
  deriving DecidableEq, Repr, Inhabited

/-- A pack in the load order. -/
structure StackEntry where
  uuid : String := ""
  version : String := ""
  subPackName : String := ""
  deriving DecidableEq, Repr, Inhabited

/-- A switch for an unfinished part of the game. -/
structure Experiment where
  name : String := ""
  enabled : Bool := false
  deriving DecidableEq, Repr, Inhabited

/-- The load order of packs. -/
structure PackStack where
  required : Bool := false
  packs : List StackEntry := []
  gameVersion : String := ""
  experiments : List Experiment := []
  experimentsToggled : Bool := false
  includeEditorPacks : Bool := false
  deriving DecidableEq, Repr, Inhabited

/-- The load order of the older revision. -/
structure LegacyPackStack where
  required : Bool := false
  behaviourPacks : List StackEntry := []
  texturePacks : List StackEntry := []
  gameVersion : String := ""
  experiments : List Experiment := []
  experimentsToggled : Bool := false
  deriving DecidableEq, Repr, Inhabited

/-- What a client can answer to the catalog and to the load order. -/
inductive Answer where
  | refused
  | sendPacks
  | allPacksDownloaded
  | completed
  deriving DecidableEq, Repr

namespace Answer

/-- The byte of an answer. -/
def code : Answer → UInt8
  | refused => 1
  | sendPacks => 2
  | allPacksDownloaded => 3
  | completed => 4

/-- The answer of a byte. -/
def ofCode? (code : UInt8) : Option Answer :=
  if code = 1 then some refused
  else if code = 2 then some sendPacks
  else if code = 3 then some allPacksDownloaded
  else if code = 4 then some completed
  else none

theorem ofCode?_code (a : Answer) : ofCode? a.code = some a := by
  cases a <;> rfl

end Answer

/-- A client's answer, as sent; `packs` holds the tokens of the packs it asks for. -/
structure ClientResponse where
  response : UInt8 := 0
  packs : List String := []
  deriving DecidableEq, Repr, Inhabited

/-- An answer that names no packs. -/
def ClientResponse.plain (a : Answer) : ClientResponse := ⟨a.code, []⟩

/-! ### Transferring packs -/

/-- Announces the transfer of one pack.  The hash may be empty. -/
structure PackData where
  uuid : String := ""
  chunkSize : UInt32 := 0
  chunkCount : UInt32 := 0
  size : UInt64 := 0
  hash : Bytes := []
  premium : Bool := false
  packType : UInt8 := 0
  deriving DecidableEq, Repr, Inhabited

/-- The pack type of resources. -/
def PackData.resources : UInt8 := 6

/-- Asks for one chunk of a pack. -/
structure ChunkRequest where
  uuid : String := ""
  index : UInt32 := 0
  deriving DecidableEq, Repr, Inhabited

/-- One chunk of a pack. -/
structure ChunkData where
  uuid : String := ""
  index : UInt32 := 0
  offset : UInt64 := 0
  data : Bytes := []
  deriving DecidableEq, Repr, Inhabited

/-! ### The game -/

/-- An item.  Network id zero is an empty slot, which carries nothing else. -/
structure Item where
  networkId : Int32 := 0
  count : UInt16 := 0
  metadata : UInt32 := 0
  stackNetworkId : Option Int32 := none
  blockRuntimeId : Int32 := 0
  canBePlacedOn : List String := []
  canBreak : List String := []
  /-- Travels only with the shield item. -/
  blockingTick : Int64 := 0
  deriving DecidableEq, Repr, Inhabited

/-- The item a creature holds. -/
structure MobEquipment where
  entity : UInt64 := 0
  item : Item := {}
  inventorySlot : UInt8 := 0
  hotbarSlot : UInt8 := 0
  window : UInt8 := 0
  deriving DecidableEq, Repr, Inhabited

/-- Clock comparison of the older revision. -/
structure TickSync where
  clientRequest : Int64 := 0
  serverReception : Int64 := 0
  deriving DecidableEq, Repr, Inhabited

end PackExchange
