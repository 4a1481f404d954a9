import PackExchange.Packet.Body
import PackExchange.Wire.Layout

/-!
# How packets are laid out

One layout for each structure of `Packet.Body`, field by field.  Two of them depend on a value
read earlier: the messages of a `Disconnect` are there only if the screen is shown, and an
`Item` stops after network id zero and carries a blocking tick only for the shield.
-/

namespace PackExchange

/-! ### Setting a session up -/

def SettingsRequest.layout : Layout SettingsRequest :=
  .mapped (.scalar .int32BE) (fun protocol => ⟨protocol⟩) (fun p => p.protocol)
    (fun _ => rfl) (fun _ => rfl)

def NetworkSettings.layout : Layout NetworkSettings :=
  .mapped
    (.pair (.scalar .word16) <| .pair (.scalar .word16) <| .pair (.scalar .flag) <|
      .pair (.scalar .byte) (.scalar .float32))
    (fun (threshold, algorithm, throttle, throttleThreshold, throttleScalar) =>
      ⟨threshold, algorithm, throttle, throttleThreshold, throttleScalar⟩)
    (fun p => (p.compressionThreshold, p.compressionAlgorithm, p.throttle, p.throttleThreshold,
      p.throttleScalar))
    (fun _ => rfl) (fun _ => rfl)

def PlayStatus.layout : Layout PlayStatus :=
  .mapped (.scalar .int32BE) (fun status => ⟨status⟩) (fun p => p.status)
    (fun _ => rfl) (fun _ => rfl)

/-- The two messages, if the screen is shown; otherwise they are empty. -/
def Disconnect.messages (hideScreen : Bool) : Layout (String × String) :=
  if hideScreen then .always ("", "") else .pair (.scalar .text) (.scalar .text)

def Disconnect.layout : Layout Disconnect :=
  .mapped
    (.pair (.scalar .varInt32) <| .andThen (.scalar .flag) Disconnect.messages)
    (fun (reason, hideScreen, message, filtered) => ⟨reason, hideScreen, message, filtered⟩)
    (fun p => (p.reason, p.hideScreen, p.message, p.filteredMessage))
    (fun _ => rfl) (fun _ => rfl)

/-! ### Offering packs -/

def CatalogEntry.layout : Layout CatalogEntry :=
  .mapped
    (.pair (.scalar .uuid) <| .pair (.scalar .text) <| .pair (.scalar .word64) <|
      .pair (.scalar .text) <| .pair (.scalar .text) <| .pair (.scalar .text) <|
      .pair (.scalar .flag) <| .pair (.scalar .flag) <| .pair (.scalar .flag) (.scalar .text))
    (fun (uuid, version, size, key, subPack, identity, scripts, addon, rtx, url) =>
      ⟨uuid, version, size, key, subPack, identity, scripts, addon, rtx, url⟩)
    (fun e => (e.uuid, e.version, e.size, e.contentKey, e.subPackName, e.contentIdentity,
      e.hasScripts, e.addon, e.rtxEnabled, e.downloadUrl))
    (fun _ => rfl) (fun _ => rfl)

def Catalog.layout : Layout Catalog :=
  .mapped
    (.pair (.scalar .flag) <| .pair (.scalar .flag) <| .pair (.scalar .flag) <|
      .pair (.scalar .uuid) <| .pair (.scalar .text) (.list .two CatalogEntry.layout))
    (fun (required, addons, scripts, template, version, packs) =>
      ⟨required, addons, scripts, template, version, packs⟩)
    (fun c => (c.required, c.hasAddons, c.hasScripts, c.worldTemplateUuid,
      c.worldTemplateVersion, c.packs))
    (fun _ => rfl) (fun _ => rfl)

def LegacyCatalog.layout : Layout LegacyCatalog :=
  .mapped
    (.pair (.scalar .flag) <| .pair (.scalar .flag) <| .pair (.scalar .flag) <|
      .pair (.scalar .flag) <| .pair (.list .two CatalogEntry.layout)
        (.list .two CatalogEntry.layout))
    (fun (required, addons, scripts, forcing, behaviour, texture) =>
      ⟨required, addons, scripts, forcing, behaviour, texture⟩)
    (fun c => (c.required, c.hasAddons, c.hasScripts, c.forcingServerPacks, c.behaviourPacks,
      c.texturePacks))
    (fun _ => rfl) (fun _ => rfl)

def StackEntry.layout : Layout StackEntry :=
  .mapped
    (.pair (.scalar .text) <| .pair (.scalar .text) (.scalar .text))
    (fun (uuid, version, subPack) => ⟨uuid, version, subPack⟩)
    (fun e => (e.uuid, e.version, e.subPackName))
    (fun _ => rfl) (fun _ => rfl)

def Experiment.layout : Layout Experiment :=
  .mapped (.pair (.scalar .text) (.scalar .flag))
    (fun (name, enabled) => ⟨name, enabled⟩) (fun e => (e.name, e.enabled))
    (fun _ => rfl) (fun _ => rfl)

def PackStack.layout : Layout PackStack :=
  .mapped
    (.pair (.scalar .flag) <| .pair (.list .varying StackEntry.layout) <|
      .pair (.scalar .text) <| .pair (.list .four Experiment.layout) <|
      .pair (.scalar .flag) (.scalar .flag))
    (fun (required, packs, version, experiments, toggled, editor) =>
      ⟨required, packs, version, experiments, toggled, editor⟩)
    (fun s => (s.required, s.packs, s.gameVersion, s.experiments, s.experimentsToggled,
      s.includeEditorPacks))
    (fun _ => rfl) (fun _ => rfl)

def LegacyPackStack.layout : Layout LegacyPackStack :=
  .mapped
    (.pair (.scalar .flag) <| .pair (.list .varying StackEntry.layout) <|
      .pair (.list .varying StackEntry.layout) <| .pair (.scalar .text) <|
      .pair (.list .four Experiment.layout) (.scalar .flag))
    (fun (required, behaviour, texture, version, experiments, toggled) =>
      ⟨required, behaviour, texture, version, experiments, toggled⟩)
    (fun s => (s.required, s.behaviourPacks, s.texturePacks, s.gameVersion, s.experiments,
      s.experimentsToggled))
    (fun _ => rfl) (fun _ => rfl)

def ClientResponse.layout : Layout ClientResponse :=
  .mapped (.pair (.scalar .byte) (.list .two (.scalar .text)))
    (fun (response, packs) => ⟨response, packs⟩) (fun r => (r.response, r.packs))
    (fun _ => rfl) (fun _ => rfl)

/-! ### Transferring packs -/

def PackData.layout : Layout PackData :=
  .mapped
    (.pair (.scalar .text) <| .pair (.scalar .word32) <| .pair (.scalar .word32) <|
      .pair (.scalar .word64) <| .pair (.scalar .blob) <| .pair (.scalar .flag) (.scalar .byte))
    (fun (uuid, chunkSize, chunkCount, size, hash, premium, packType) =>
      ⟨uuid, chunkSize, chunkCount, size, hash, premium, packType⟩)
    (fun d => (d.uuid, d.chunkSize, d.chunkCount, d.size, d.hash, d.premium, d.packType))
    (fun _ => rfl) (fun _ => rfl)

def ChunkRequest.layout : Layout ChunkRequest :=
  .mapped (.pair (.scalar .text) (.scalar .word32))
    (fun (uuid, index) => ⟨uuid, index⟩) (fun r => (r.uuid, r.index))
    (fun _ => rfl) (fun _ => rfl)

def ChunkData.layout : Layout ChunkData :=
  .mapped
    (.pair (.scalar .text) <| .pair (.scalar .word32) <| .pair (.scalar .word64) (.scalar .blob))
    (fun (uuid, index, offset, data) => ⟨uuid, index, offset, data⟩)
    (fun c => (c.uuid, c.index, c.offset, c.data))
    (fun _ => rfl) (fun _ => rfl)

/-! ### The game -/

/-- What follows the network id of an item. -/
abbrev Item.Rest :=
  UInt16 × UInt32 × Option Int32 × Int32 × List String × List String × Int64

/-- The blocking tick, which only the shield carries. -/
def Item.tick (shield networkId : Int32) : Layout Int64 :=
  if networkId = shield then .scalar .int64 else .always 0

/-- What follows the network id of an item: nothing for an empty slot. -/
def Item.restLayout (shield networkId : Int32) : Layout Item.Rest :=
  if networkId = 0 then .always (0, 0, none, 0, [], [], 0)
  else
    .pair (.scalar .word16) <| .pair (.scalar .varWord32) <|
      .pair (.optional (.scalar .varInt32)) <| .pair (.scalar .varInt32) <|
      .pair (.list .four (.scalar .text)) <| .pair (.list .four (.scalar .text))
        (Item.tick shield networkId)

def Item.layout (shield : Int32) : Layout Item :=
  .mapped (.andThen (.scalar .varInt32) (Item.restLayout shield))
    (fun (networkId, count, metadata, stackId, blockId, placedOn, breaks, tick) =>
      ⟨networkId, count, metadata, stackId, blockId, placedOn, breaks, tick⟩)
    (fun i => (i.networkId, i.count, i.metadata, i.stackNetworkId, i.blockRuntimeId,
      i.canBePlacedOn, i.canBreak, i.blockingTick))
    (fun _ => rfl) (fun _ => rfl)

def MobEquipment.layout (shield : Int32) : Layout MobEquipment :=
  .mapped
    (.pair (.scalar .varWord64) <| .pair (Item.layout shield) <| .pair (.scalar .byte) <|
      .pair (.scalar .byte) (.scalar .byte))
    (fun (entity, item, inventorySlot, hotbarSlot, window) =>
      ⟨entity, item, inventorySlot, hotbarSlot, window⟩)
    (fun m => (m.entity, m.item, m.inventorySlot, m.hotbarSlot, m.window))
    (fun _ => rfl) (fun _ => rfl)

def TickSync.layout : Layout TickSync :=
  .mapped (.pair (.scalar .int64) (.scalar .int64))
    (fun (client, server) => ⟨client, server⟩) (fun t => (t.clientRequest, t.serverReception))
    (fun _ => rfl) (fun _ => rfl)

end PackExchange
