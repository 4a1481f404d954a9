import PackExchange.Packet.Basic

/-!
# Stages

Each side of the exchange goes through stages, and in each stage it admits only some kinds of
packets.  What it does not admit it ignores.  A disconnect is admitted always.

* `ClientStage` and `ClientStage.admits`;
* `ServerStage` and `ServerStage.admits`.
-/

namespace PackExchange

open Packet (Kind)

/-- The kind of a packet, unless it is unknown. -/
def Packet.kind? : Packet → Option Kind
  | .known kind _ => some kind
  | .unknown .. => none

/-- How far a joining client has come. -/
inductive ClientStage where
  | awaitingNetworkSettings
  | awaitingCatalog
  | downloading
  | awaitingStack
  | done
  deriving DecidableEq, Repr

namespace ClientStage

/-- The name of a stage. -/
def name : ClientStage → String
  | awaitingNetworkSettings => "AwaitingNetworkSettings"
  | awaitingCatalog => "AwaitingPacksInfo"
  | downloading => "Downloading"
  | awaitingStack => "AwaitingStack"
  | done => "Done"

/-- All stages, in the order a client goes through them. -/
def all : List ClientStage :=
  [awaitingNetworkSettings, awaitingCatalog, downloading, awaitingStack, done]

/-- The kinds a stage admits besides a disconnect. -/
def kinds : ClientStage → List Kind
  | awaitingNetworkSettings => [.networkSettings, .playStatus]
  | awaitingCatalog => [.playStatus, .catalog]
  | downloading => [.packData, .chunkData]
  | awaitingStack => [.stack]
  | done => []

/-- Does a client handle the packet in this stage? -/
def admits (stage : ClientStage) (p : Packet) : Bool :=
  match p.kind? with
  | some kind => kind == .disconnect || stage.kinds.contains kind
  | none => false

end ClientStage

/-- How far a connected client has come, as the server sees it. -/
inductive ServerStage where
  | awaitingRequest
  | awaitingResponse
  | servingChunks
  | awaitingCompletion
  | loggedIn
  deriving DecidableEq, Repr

namespace ServerStage

/-- The name of a stage. -/
def name : ServerStage → String
  | awaitingRequest => "AwaitingRequest"
  | awaitingResponse => "AwaitingResponse"
  | servingChunks => "ServingChunks"
  | awaitingCompletion => "AwaitingCompletion"
  | loggedIn => "LoggedIn"

/-- All stages, in the order a server goes through them. -/
def all : List ServerStage :=
  [awaitingRequest, awaitingResponse, servingChunks, awaitingCompletion, loggedIn]

/-- Does a server handle the packet in this stage?  After login it handles all packets but a
second request for settings. -/
def admits (stage : ServerStage) (p : Packet) : Bool :=
  p.kind? == some .disconnect ||
    match stage with
    | awaitingRequest => p.kind? == some .settingsRequest
    | awaitingResponse | awaitingCompletion => p.kind? == some .clientResponse
    | servingChunks => p.kind? == some .chunkRequest
    | loggedIn => p.kind? != some .settingsRequest

end ServerStage

end PackExchange
