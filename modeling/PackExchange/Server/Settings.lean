import PackExchange.Pack
import PackExchange.Session.Settings
import PackExchange.Toml.Document

/-!
# Server settings

* `ServerSettings` — where a server listens, how its sessions go, and the packs it serves;
* `ServerSettings.parse?` and `ServerSettings.load?` — the settings that a settings file holds;
* `ServerSettings.loadPacks` — the packs themselves, out of their files.

Whatever a file leaves out has its default, and keys without a meaning are skipped.  A value of the
wrong type or out of range makes the whole file unusable.
-/

namespace PackExchange

/-- A pack that a server serves. -/
structure PackSource where
  path : String
  id : PackId
  contentKey : String := ""
  downloadUrl : String := ""
  deriving DecidableEq, Repr

/-- The settings of a server. -/
structure ServerSettings where
  bind : String := "0.0.0.0"
  tcpPort : UInt16 := 19132
  session : SessionSettings := {}
  packs : List PackSource := []
  deriving DecidableEq, Repr

namespace Toml

/-! ### Values of a type -/

def text? : Toml → Option String
  | .text s => some s
  | _ => none

def flag? : Toml → Option Bool
  | .boolean b => some b
  | _ => none

/-- An integer between two bounds. -/
def within? (least most : Int) : Toml → Option Int
  | .integer n => if least ≤ n ∧ n ≤ most then some n else none
  | _ => none

def word16? (v : Toml) : Option UInt16 := (within? 0 65535 v).map fun n => UInt16.ofNat n.toNat

def word32? (v : Toml) : Option UInt32 :=
  (within? 0 4294967295 v).map fun n => UInt32.ofNat n.toNat

def int32? (v : Toml) : Option Int32 := (within? (-2147483648) 2147483647 v).map Int32.ofInt

/-- The fields of a record, by name and place.  A record is written as a table or as an array; a
point in time counts as a table without any of the names. -/
def record? : Toml → Option (String → Nat → Option Toml)
  | .table entries => some fun name _ => get? entries name
  | .array items => some fun _ place => items[place]?
  | .moment _ => some fun _ _ => none
  | _ => none

/-- The value of a field, which has a default. -/
def orElse? {α : Type} (field : Option Toml) (fallback : α) (read : Toml → Option α) : Option α :=
  match field with
  | none => some fallback
  | some v => read v

end Toml

/-- The session settings in a value. -/
def SessionSettings.ofToml? (v : Toml) : Option SessionSettings := do
  let field ← v.record?
  let d : SessionSettings := {}
  let unknown ← Toml.orElse? (field "disconnect_on_unknown_packet" 0) false Toml.flag?
  let invalid ← Toml.orElse? (field "disconnect_on_invalid_packet" 1) false Toml.flag?
  let shield ← Toml.orElse? (field "shield_item_id" 2) 0 Toml.int32?
  let chunkSize ← Toml.orElse? (field "chunk_size" 3) d.chunkSize Toml.word32?
  let limits ← Toml.orElse? (field "enable_limits" 4) false Toml.flag?
  let required ← Toml.orElse? (field "texture_packs_required" 5) d.required Toml.flag?
  let threshold ←
    Toml.orElse? (field "compression_threshold" 6) d.compressionThreshold Toml.word16?
  return {
    policy := ⟨unknown, invalid, shield, limits⟩
    chunkSize := chunkSize
    required := required
    compressionThreshold := threshold }

/-- The pack in an entry of the list of packs, which has to be a table. -/
def PackSource.ofToml? : Toml → Option PackSource
  | .table entries => do
    let path ← (← Toml.get? entries "path").text?
    let uuid ← Uuid.parse? (← (← Toml.get? entries "uuid").text?).toList
    let version ← (← Toml.get? entries "version").text?
    let contentKey ← Toml.orElse? (Toml.get? entries "content_key") "" Toml.text?
    let downloadUrl ← Toml.orElse? (Toml.get? entries "download_url") "" Toml.text?
    return { path, id := ⟨uuid, version⟩, contentKey, downloadUrl }
  | _ => none

namespace ServerSettings

/-- The packs in a list of packs. -/
def packsOfToml? : Toml → Option (List PackSource)
  | .array items => items.mapM PackSource.ofToml?
  | _ => none

/-- The settings that a settings file holds. -/
def parse? (file : String) : Option ServerSettings := do
  let entries ← Toml.parse? file
  let d : ServerSettings := {}
  let bind ← Toml.orElse? (Toml.get? entries "bind") d.bind Toml.text?
  let tcpPort ← Toml.orElse? (Toml.get? entries "port") d.tcpPort Toml.word16?
  let session ← Toml.orElse? (Toml.get? entries "session") d.session SessionSettings.ofToml?
  let packs ← Toml.orElse? (Toml.get? entries "packs") d.packs packsOfToml?
  return { bind, tcpPort, session, packs }

/-- The settings in a file, of which `read` gives the bytes; if there is no such file, all settings
have their defaults. -/
def load? (read : String → Option Bytes) (path : String) : Option ServerSettings :=
  match read path with
  | none => some {}
  | some bs => (Bytes.toText? bs).bind parse?

end ServerSettings

/-! ### The packs -/

/-- Why a pack cannot be served. -/
inductive LoadError where
  | unreadable (path : String)
  | empty (path : String)
  deriving DecidableEq, Repr

/-- The wording of a load error. -/
def LoadError.message : LoadError → String
  | unreadable path => s!"Failed to read pack {path}"
  | empty path => s!"Pack {path} is empty"

/-- A pack out of its file; `read` gives the bytes of a file, if there is one. -/
def PackSource.load (read : String → Option Bytes) (source : PackSource) :
    Except LoadError Archive :=
  match read source.path with
  | none => .error (.unreadable source.path)
  | some [] => .error (.empty source.path)
  | some data =>
    .ok { id := source.id, data := data, contentKey := source.contentKey
          downloadUrl := source.downloadUrl }

/-- All packs, or why the first one fails that does. -/
def ServerSettings.loadPacks (read : String → Option Bytes) (s : ServerSettings) :
    Except LoadError (List Pack) :=
  s.packs.mapM fun source => (source.load read).map Archive.toPack

end PackExchange
