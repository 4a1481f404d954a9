import Mathlib.Logic.Relation
import PackExchange.Proofs.Transfer.Effects

/-!
# The course of a client's exchange

The stage is read when a packet is admitted and the packet is handled afterwards; the workers go
on at any time, also between the two.  A course keeps, beside the client's side, what was handled
and what was sent.

* `Fetch.take` — the reaction to any packet, and `Packet.transfers`;
* `Handled` and its lists — which packets were handled, and which of them were accepted;
* `Course` and `Course.Step` — a course, and everything that may happen next in it;
* `Course.Reachable` — the states that courses come to from the start.
-/

namespace PackExchange

/-- The reaction to a packet: the client's side afterwards, what it sends, and what was wrong with
the packet, if anything was. -/
def Fetch.take (f : Fetch) (p : Packet) : Fetch × List Packet × Option TransferError :=
  match p with
  | .networkSettings _ => (f.takeSettings, [], none)
  | .catalog c => ((f.takeCatalog c).1, (f.takeCatalog c).2, none)
  | .packData a => ((f.takeAnnouncement a).1, [], (f.takeAnnouncement a).2)
  | .chunkData c => ((f.takeChunk c).1, [], (f.takeChunk c).2)
  | .stack s =>
    match f.takeStack s with
    | .error e => (f, [], some e)
    | .ok (f, sent) => (f, sent, none)
  | _ => (f, [], none)

/-- Does a packet belong to a download? -/
def Packet.transfers : Packet → Bool
  | .packData _ | .chunkData _ => true
  | _ => false

theorem Packet.eq_of_transfers {p : Packet} (h : p.transfers = true) :
    (∃ a, p = .packData a) ∨ ∃ c, p = .chunkData c := by
  cases p with
  | unknown id bytes => cases h
  | known kind body =>
    cases kind with
    | packData => exact Or.inl ⟨body, rfl⟩
    | chunkData => exact Or.inr ⟨body, rfl⟩
    | _ => cases h

/-! ### What was handled -/

/-- A packet that was handled, and what was wrong with it, if anything was. -/
structure Handled where
  packet : Packet
  fault : Option TransferError

namespace Handled

/-- The catalogs among what was handled. -/
def catalogs (hs : List Handled) : List Catalog :=
  hs.filterMap fun h =>
    match h.packet with
    | .catalog c => some c
    | _ => none

/-- The announcements of a pack that were accepted. -/
def announcements (uuid : Uuid) (hs : List Handled) : List PackData :=
  hs.filterMap fun h =>
    match h.packet, h.fault with
    | .packData a, none => if PackId.uuidOf? a.uuid = some uuid then some a else none
    | _, _ => none

/-- The chunks of a pack that were accepted. -/
def chunks (uuid : Uuid) (hs : List Handled) : List ChunkData :=
  hs.filterMap fun h =>
    match h.packet, h.fault with
    | .chunkData c, none => if PackId.uuidOf? c.uuid = some uuid then some c else none
    | _, _ => none

/-- The load orders that were accepted. -/
def loadOrders (hs : List Handled) : List PackStack :=
  hs.filterMap fun h =>
    match h.packet, h.fault with
    | .stack s, none => some s
    | _, _ => none

end Handled

/-! ### Courses -/

/-- A client's side with its past. -/
structure Course where
  fetch : Fetch
  /-- A packet that was admitted and not handled yet. -/
  held : Option Packet := none
  /-- What was handled, in order. -/
  handled : List Handled := []
  /-- What was sent, in order. -/
  sent : List Packet := []

namespace Course

/-- The start of a course. -/
def start (rules : FetchRules) : Course := { fetch := { rules := rules } }

/-- Handles a packet. -/
def handle (c : Course) (p : Packet) : Course :=
  { fetch := (c.fetch.take p).1
    held := none
    handled := c.handled ++ [⟨p, (c.fetch.take p).2.2⟩]
    sent := c.sent ++ (c.fetch.take p).2.1 }

/-- Lets the worker of one download take one step. -/
def work (c : Course) (k : Nat) (slotFirst : Bool) : Course :=
  { c with
    fetch := (c.fetch.work k slotFirst).1
    sent := c.sent ++ (c.fetch.work k slotFirst).2 }

/-- What may happen next.  Any packet may come, and any worker may be woken. -/
inductive Step : Course → Course → Prop
  | hold {c : Course} {p : Packet} (hheld : c.held = none)
      (hadmits : c.fetch.stage.admits p = true) : Step c { c with held := some p }
  | handle {c : Course} {p : Packet} (hheld : c.held = some p) : Step c (c.handle p)
  | work (c : Course) (k : Nat) (slotFirst : Bool) : Step c (c.work k slotFirst)
  | cancel (c : Course) : Step c { c with fetch := c.fetch.cancel }

/-- Can the course come to this state from its start? -/
def Reachable (rules : FetchRules) : Course → Prop := Relation.ReflTransGen Step (start rules)

/-- A packet may be handled as soon as it is admitted. -/
theorem Reachable.pass {rules : FetchRules} {c : Course} (h : Reachable rules c) {p : Packet}
    (hheld : c.held = none) (hadmits : c.fetch.stage.admits p = true) :
    Reachable rules (c.handle p) := by
  have hhold : Reachable rules { c with held := some p } := h.tail (.hold hheld hadmits)
  exact hhold.tail (.handle rfl)

/-- An invariant holds wherever courses come to. -/
theorem Reachable.invariant {rules : FetchRules} {P : Course → Prop} (hstart : P (start rules))
    (hstep : ∀ {c c'}, P c → Step c c' → P c') {c : Course} (h : Reachable rules c) : P c := by
  induction h with
  | refl => exact hstart
  | tail _ hlast ih => exact hstep ih hlast

end Course

end PackExchange
