import PackExchange.Proofs.Session.Crossing
import PackExchange.Proofs.Transfer.Dialog
import PackExchange.Session.Join
import PackExchange.Session.Serve

/-!
# What two sessions agree on

A server and a client are each told something before they meet.  Of that follows what they send,
and that either of them can read it.

* `Terms` — what the two sides are told, with `Terms.Fair`;
* `Terms.Downward`, `Terms.Upward` — the entries of either outbox that carry a packet across;
* `Terms.Fair.downward_emitted`, `Terms.Fair.upward_elicited` — the packets of the exchange cross.
-/

namespace PackExchange

/-- What a server and a client are told before they meet. -/
structure Terms where
  server : SessionSettings
  client : SessionSettings
  revision : Revision
  filter : Option DownloadFilter
  packs : List Pack

namespace Terms

/-- The offer that the server makes. -/
def offer (t : Terms) : Offer := Offer.ofPacks t.packs t.server.chunkSize

/-- The server's side at the start. -/
def serve (t : Terms) : Serve := { settings := t.server, packs := t.packs }

/-- The client's side at the start. -/
def join (t : Terms) : Join :=
  { settings := t.client
    revision := t.revision
    fetch := { rules := { filter := t.filter } } }

/-- Packs that can be exchanged: each has an identifier of its own, holds the bytes it says it
holds, and has no more chunks than can be counted; and there are no more packs than a list may
have. -/
structure Fair (t : Terms) (content : Pack → Bytes) : Prop where
  distinct : (t.packs.map (·.id.uuid)).Nodup
  holds : ∀ p ∈ t.packs, p.Holds (content p)
  countable : ∀ p ∈ t.packs, Download.ceiling p.size t.offer.chunkSize < 2 ^ 32
  few : t.packs.length ≤ 65535
  fewer : t.server.policy.limits = true ∨ t.client.policy.limits = true → t.packs.length ≤ 1023

/-- What the server leaves to its writer for a packet that the client reads. -/
def Downward (t : Terms) (o : Outgoing) (p : Packet) : Prop :=
  o.Sends (Opens t.revision t.client.policy) t.server.policy.shield t.revision p

/-- What the client leaves to its writer for a packet that the server reads. -/
def Upward (t : Terms) (o : Outgoing) (p : Packet) : Prop :=
  o.Sends (OpensAlways t.server.policy) t.client.policy.shield t.revision p

variable {t : Terms} {content : Pack → Bytes}

theorem length_offer_le (t : Terms) : t.offer.packs.length ≤ t.packs.length :=
  List.length_filter_le _ _

theorem Fair.offer (h : t.Fair content) : t.offer.Fair content := by
  have hsub : t.offer.packs.Sublist t.packs := List.filter_sublist
  refine ⟨h.distinct.sublist (hsub.map _), ?_⟩
  intro p hp
  have hmem := hsub.subset hp
  refine ⟨h.holds p hmem, ?_, ?_, h.countable p hmem⟩
  · have hsome := (List.mem_filter.mp hp).2
    rw [Pack.isEmpty, Bool.not_eq_true', beq_eq_false_iff_ne] at hsome
    exact hsome
  · show (if t.server.chunkSize = 0 then 1 else t.server.chunkSize) ≠ 0
    split
    · decide
    · next hne => exact hne

/-- No list of packs is too long for either side. -/
theorem Fair.admits (h : t.Fair content) {policy : Policy}
    (hpolicy : policy = t.server.policy ∨ policy = t.client.policy) {n : Nat}
    (hn : n ≤ t.packs.length) : CountWidth.two.Admits policy.limits n := by
  refine ⟨Nat.le_trans hn h.few, fun hlimits => ?_⟩
  have hfewer : t.packs.length ≤ 1023 := by
    rcases hpolicy with rfl | rfl
    · exact h.fewer (Or.inl hlimits)
    · exact h.fewer (Or.inr hlimits)
  rw [CountWidth.countLimit]
  omega

/-- Nor is the load order, which names one pack more. -/
theorem Fair.admits_stack (h : t.Fair content) :
    CountWidth.varying.Admits t.client.policy.limits t.offer.stack.packs.length := by
  have hlength := t.offer.length_stack
  have hle := t.length_offer_le
  have hfew := h.few
  refine ⟨?_, fun hlimits => ?_⟩
  · rw [hlength, CountWidth.most]
    omega
  · have hfewer := h.fewer (Or.inr hlimits)
    rw [hlength, CountWidth.countLimit]
    omega

/-! ### The packets of the exchange -/

theorem downward_constant (t : Terms) {kind : Packet.Kind} (hkind : kind.constant = true)
    {body : kind.Body}
    (hcountable : (kind.layout t.client.policy.shield).Countable t.client.policy.limits body) :
    t.Downward (.queued (.known kind body)) (.known kind body) :=
  (Packet.Kind.sends_constant hkind hcountable _ _).opens

theorem downward_packData (t : Terms) (a : PackData) :
    t.Downward (.queued (.packData a)) (.packData a) :=
  t.downward_constant rfl
    ⟨trivial, trivial, trivial, trivial, trivial, trivial, trivial⟩

theorem downward_chunkData (t : Terms) (c : ChunkData) :
    t.Downward (.queued (.chunkData c)) (.chunkData c) :=
  t.downward_constant rfl ⟨trivial, trivial, trivial, trivial⟩

theorem downward_playStatus (t : Terms) (s : PlayStatus) :
    t.Downward (.queued (.playStatus s)) (.playStatus s) :=
  t.downward_constant rfl trivial

theorem Fair.downward_stack (h : t.Fair content) :
    t.Downward (.queued (.stack t.offer.stack)) (.stack t.offer.stack) :=
  sends_stack rfl h.admits_stack rfl _ _

theorem Fair.downward_catalog (h : t.Fair content) (required : Bool) :
    t.Downward (.queued (.catalog (t.offer.catalog required)))
      (.catalog (t.offer.catalog required)) := by
  refine sends_catalog (t.offer.catalog_plain required) ?_ _ _
  rw [t.offer.length_catalog]
  exact h.admits (Or.inr rfl) t.length_offer_le

theorem downward_networkSettings (t : Terms) (n : NetworkSettings) :
    t.Downward (.direct (.networkSettings n)) (.networkSettings n) :=
  (sends_direct n _ _ _).opens

theorem upward_constant (t : Terms) {kind : Packet.Kind} (hkind : kind.constant = true)
    {body : kind.Body}
    (hcountable : (kind.layout t.server.policy.shield).Countable t.server.policy.limits body) :
    t.Upward (.queued (.known kind body)) (.known kind body) :=
  Packet.Kind.sends_constant hkind hcountable _ _

theorem upward_settingsRequest (t : Terms) (r : SettingsRequest) :
    t.Upward (.queued (.settingsRequest r)) (.settingsRequest r) :=
  t.upward_constant rfl trivial

theorem upward_chunkRequest (t : Terms) (r : ChunkRequest) :
    t.Upward (.queued (.chunkRequest r)) (.chunkRequest r) :=
  t.upward_constant rfl ⟨trivial, trivial⟩

theorem Fair.upward_clientResponse (h : t.Fair content) {r : ClientResponse}
    (hr : r.packs.length ≤ t.packs.length) :
    t.Upward (.queued (.clientResponse r)) (.clientResponse r) :=
  t.upward_constant rfl ⟨trivial, h.admits (Or.inl rfl) hr, fun _ _ => trivial⟩

/-- **What the server sends in the exchange can be read by the client.** -/
theorem Fair.downward_emitted (h : t.Fair content) {p : Packet} (hp : t.offer.Emits p) :
    t.Downward (.queued p) p ∧ p.greeting = false := by
  cases hp with
  | packData a => exact ⟨t.downward_packData a, rfl⟩
  | chunkData c => exact ⟨t.downward_chunkData c, rfl⟩
  | stack => exact ⟨h.downward_stack, rfl⟩

/-- **What the client sends in the exchange can be read by the server.** -/
theorem Fair.upward_elicited (h : t.Fair content) {p : Packet} (hp : t.offer.Elicits p) :
    t.Upward (.queued p) p ∧ p.greeting = false := by
  cases hp with
  | chunkRequest r => exact ⟨t.upward_chunkRequest r, rfl⟩
  | clientResponse hr => exact ⟨h.upward_clientResponse (Nat.le_trans hr t.length_offer_le), rfl⟩

end Terms

end PackExchange
