/-!
# What can be wrong with bytes on the wire

One cause per constructor, and the one place that words them.
-/

namespace PackExchange

/-- Why a field could not be read. -/
inductive WireError where
  /-- A variable-length integer goes on past its last permitted byte. -/
  | varIntTooBig
  /-- Fewer bytes are left than the field needs. -/
  | notEnoughData (needed remaining : Nat)
  /-- A list announces more elements than the reader admits. -/
  | limitHit (count limit : Nat)
  /-- The bytes of a text are not UTF-8. -/
  | invalidUtf8
  deriving DecidableEq, Repr

/-- The wording of a cause. -/
def WireError.message : WireError → String
  | .varIntTooBig => "VarInt too big"
  | .notEnoughData needed remaining =>
    s!"Not enough data: needed {needed}, {remaining} remaining"
  | .limitHit count limit => s!"Slice length {count} exceeds limit {limit}"
  | .invalidUtf8 => "Invalid UTF-8 in string"

end PackExchange
