import PackExchange.Packet.Envelope

/-!
# Session settings

* `SessionSettings` — what either side of a session is told beforehand, with its defaults.
-/

namespace PackExchange

/-- The settings of a session, for either side. -/
structure SessionSettings where
  policy : Policy := {}
  /-- How large the chunks of a served pack are. -/
  chunkSize : UInt32 := 131072
  /-- Must clients take the packs? -/
  required : Bool := false
  /-- From how many bytes on batches are compressed. -/
  compressionThreshold : UInt16 := 256
  deriving DecidableEq, Repr

end PackExchange
