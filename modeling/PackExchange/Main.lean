import PackExchange.Server.Settings
import PackExchange.Session.Basic
import PackExchange.Session.Serve

/-!
# Serving one client over standard streams

The program reads its settings and the packs they name, and serves one client that is connected to
its standard input and output.
-/

namespace PackExchange

/-- Where the settings are. -/
def settingsPath : String := "config/server.toml"

/-- The bytes of a file, if it can be read. -/
def readFile? (path : String) : IO (Option Bytes) := do
  try
    let contents ← IO.FS.readBinFile path
    return some contents.data.toList
  catch _ => return none

/-- Writes out the frames that a session has written. -/
def flushFrames (output : IO.FS.Stream) (s : Session Serve Unit) : IO (Session Serve Unit) := do
  let (written, s) := s.drain
  for w in written do
    output.write ⟨w.frame.toArray⟩
  output.flush
  return s

/-- Runs a session on what arrives, until it ends.  Bytes are read one by one: a longer read would
wait for bytes that the client sends only after it has been answered. -/
partial def serveStreams (input output : IO.FS.Stream) (s : Session Serve Unit) :
    IO (Session Serve Unit) := do
  let s ← flushFrames output (s.run Serve.role)
  if s.done then return s
  let piece ← input.read 1
  serveStreams input output (if piece.isEmpty then s.close else s.arrive piece.data.toList)

/-- The packs that the settings name. -/
def readPacks (settings : ServerSettings) : IO (Except LoadError (List Pack)) := do
  let files ← settings.packs.mapM fun source => do
    return (source.path, ← readFile? source.path)
  return settings.loadPacks fun path => (files.lookup path).join

end PackExchange

open PackExchange in
/-- Serves one client over standard input and output. -/
def main : IO UInt32 := do
  let file ← readFile? settingsPath
  match ServerSettings.load? (fun _ => file) settingsPath with
  | none =>
    IO.eprintln s!"Cannot use the settings in {settingsPath}"
    return 1
  | some settings =>
    match ← readPacks settings with
    | .error e =>
      IO.eprintln e.message
      return 1
    | .ok packs =>
      let serve : Serve := { settings := settings.session, packs := packs }
      let s ← serveStreams (← IO.getStdin) (← IO.getStdout) (.begin Serve.role serve [])
      match s.result with
      | some (.error e) =>
        IO.eprintln e.message
        return 1
      | _ => return 0
