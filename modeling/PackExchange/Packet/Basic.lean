import PackExchange.Packet.Layout

/-!
# Packets

A packet is one of the known kinds with its body, or a packet of an unknown id with its bytes.

* `Packet.Kind` — the known kinds, with their ids, names, bodies and layouts;
* `Packet` — a kind and a body of that kind, or unknown bytes;
* `Packet.id`, `Packet.name` and `Packet.payload` — what is written of a packet.

Two kinds belong to the older revision only and share their id with the kind that replaced them.
-/

namespace PackExchange

namespace Packet

/-- The kinds of packets a session knows. -/
inductive Kind where
  | settingsRequest
  | networkSettings
  | playStatus
  | disconnect
  | catalog
  | stack
  | clientResponse
  | packData
  | chunkRequest
  | chunkData
  | mobEquipment
  | legacyCatalog
  | legacyStack
  | tickSync
  deriving DecidableEq, Repr

namespace Kind

/-- The id a kind has on the wire. -/
def id : Kind → UInt32
  | playStatus => 0x02
  | disconnect => 0x05
  | catalog | legacyCatalog => 0x06
  | stack | legacyStack => 0x07
  | clientResponse => 0x08
  | tickSync => 0x17
  | mobEquipment => 0x1F
  | packData => 0x52
  | chunkData => 0x53
  | chunkRequest => 0x54
  | networkSettings => 0x8F
  | settingsRequest => 0xC1

/-- The name of a kind in messages. -/
def name : Kind → String
  | settingsRequest => "RequestNetworkSettings"
  | networkSettings => "NetworkSettings"
  | playStatus => "PlayStatus"
  | disconnect => "Disconnect"
  | catalog => "ResourcePacksInfo"
  | stack => "ResourcePackStack"
  | clientResponse => "ResourcePackClientResponse"
  | packData => "ResourcePackDataInfo"
  | chunkRequest => "ResourcePackChunkRequest"
  | chunkData => "ResourcePackChunkData"
  | mobEquipment => "MobEquipment"
  | legacyCatalog => "LegacyResourcePacksInfo"
  | legacyStack => "LegacyResourcePackStack"
  | tickSync => "TickSync"

/-- What a packet of a kind carries. -/
abbrev Body : Kind → Type
  | settingsRequest => SettingsRequest
  | networkSettings => NetworkSettings
  | playStatus => PlayStatus
  | disconnect => Disconnect
  | catalog => Catalog
  | stack => PackStack
  | clientResponse => ClientResponse
  | packData => PackData
  | chunkRequest => ChunkRequest
  | chunkData => ChunkData
  | mobEquipment => MobEquipment
  | legacyCatalog => LegacyCatalog
  | legacyStack => LegacyPackStack
  | tickSync => TickSync

instance (kind : Kind) : DecidableEq kind.Body := by
  cases kind <;> (unfold Body; infer_instance)

/-- The body of a freshly made packet. -/
def fresh : (kind : Kind) → kind.Body
  | settingsRequest => {}
  | networkSettings => {}
  | playStatus => {}
  | disconnect => {}
  | catalog => {}
  | stack => {}
  | clientResponse => {}
  | packData => {}
  | chunkRequest => {}
  | chunkData => {}
  | mobEquipment => {}
  | legacyCatalog => {}
  | legacyStack => {}
  | tickSync => {}

/-- How the body of a kind is laid out, given the network id of the shield item. -/
def layout (shield : Int32) : (kind : Kind) → Layout kind.Body
  | settingsRequest => SettingsRequest.layout
  | networkSettings => NetworkSettings.layout
  | playStatus => PlayStatus.layout
  | disconnect => Disconnect.layout
  | catalog => Catalog.layout
  | stack => PackStack.layout
  | clientResponse => ClientResponse.layout
  | packData => PackData.layout
  | chunkRequest => ChunkRequest.layout
  | chunkData => ChunkData.layout
  | mobEquipment => MobEquipment.layout shield
  | legacyCatalog => LegacyCatalog.layout
  | legacyStack => LegacyPackStack.layout
  | tickSync => TickSync.layout

end Kind

end Packet

/-- A packet without its header. -/
inductive Packet where
  | known (kind : Packet.Kind) (body : kind.Body)
  /-- An id that the revision has no packet for; the bytes are kept as they are. -/
  | unknown (id : UInt32) (bytes : Bytes)
  deriving DecidableEq

namespace Packet

/-! ### The kinds as patterns -/

@[match_pattern] abbrev settingsRequest (body : SettingsRequest) : Packet :=
  .known .settingsRequest body
@[match_pattern] abbrev networkSettings (body : NetworkSettings) : Packet :=
  .known .networkSettings body
@[match_pattern] abbrev playStatus (body : PlayStatus) : Packet := .known .playStatus body
@[match_pattern] abbrev disconnect (body : Disconnect) : Packet := .known .disconnect body
@[match_pattern] abbrev catalog (body : Catalog) : Packet := .known .catalog body
@[match_pattern] abbrev stack (body : PackStack) : Packet := .known .stack body
@[match_pattern] abbrev clientResponse (body : ClientResponse) : Packet :=
  .known .clientResponse body
@[match_pattern] abbrev packData (body : PackData) : Packet := .known .packData body
@[match_pattern] abbrev chunkRequest (body : ChunkRequest) : Packet := .known .chunkRequest body
@[match_pattern] abbrev chunkData (body : ChunkData) : Packet := .known .chunkData body
@[match_pattern] abbrev mobEquipment (body : MobEquipment) : Packet := .known .mobEquipment body
@[match_pattern] abbrev legacyCatalog (body : LegacyCatalog) : Packet :=
  .known .legacyCatalog body
@[match_pattern] abbrev legacyStack (body : LegacyPackStack) : Packet := .known .legacyStack body
@[match_pattern] abbrev tickSync (body : TickSync) : Packet := .known .tickSync body

/-! ### What is written of a packet -/

/-- The id a packet is sent under. -/
def id : Packet → UInt32
  | known kind _ => kind.id
  | unknown id _ => id

/-- The name of a packet in messages. -/
def name : Packet → String
  | known kind _ => kind.name
  | unknown .. => "Unknown"

/-- The bytes after the header. -/
def payload (shield : Int32) : Packet → Bytes
  | known kind body => (kind.layout shield).write body
  | unknown _ bytes => bytes

end Packet

end PackExchange
