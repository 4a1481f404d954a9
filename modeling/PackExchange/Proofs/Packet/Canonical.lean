import PackExchange.Proofs.Packet.Translation
import PackExchange.Proofs.Wire.Shortest

/-!
# Packets are written in one form

A packet may reach the program in many forms: an integer in too many groups, a flag as any byte but
zero, a header with bits that nobody reads, bytes after the end.  Encoding what was decoded gives
one of them, which is no longer than the others and decodes to the same packet.

* `Header.of_read?` — the header that was read fits its bits, and is written in no more bytes;
* `RawPacket.of_decode_latest` — so does the one packet that was decoded;
* `reencode_canonical` — encoding a decoded packet.
-/

namespace PackExchange

/-! ### Headers -/

namespace Header

/-- The sub-clients of a header that was read fit their bits. -/
theorem subClients_ofWord_lt (w : UInt32) : (ofWord w).sender < 4 ∧ (ofWord w).target < 4 := by
  have hpart : ∀ n : Nat, UInt8.ofNat (n % 4) < 4 := by
    intro n
    show (UInt8.ofNat (n % 4)).toNat < 4
    rw [UInt8.toNat_ofNat']
    omega
  exact ⟨hpart _, hpart _⟩

/-- Writing the parts of a word drops the bits above them. -/
theorem toWord_ofWord_le (w : UInt32) : (ofWord w).toWord ≤ w := by
  have hid : (UInt32.ofNat (w.toNat % 1024)).toNat = w.toNat % 1024 := by
    rw [UInt32.toNat_ofNat']
    omega
  have hsub : ∀ n : Nat, (UInt8.ofNat (n % 4)).toNat = n % 4 := by
    intro n
    rw [UInt8.toNat_ofNat']
    omega
  simp only [UInt32.le_iff_toNat_le, toWord, ofWord, hid, hsub, UInt32.toNat_ofNat']
  omega

/-- The header that was read fits its bits, and is written in no more bytes. -/
theorem of_read? {bs rest : Bytes} {h : Header} (hread : read? bs = .ok (h, rest)) :
    h.packetId < 1024 ∧ h.sender < 4 ∧ h.target < 4 ∧
      h.write.length + rest.length ≤ bs.length := by
  rw [read?] at hread
  split at hread
  · cases hread
  · next w tail hw =>
    cases hread
    obtain ⟨hsender, htarget⟩ := subClients_ofWord_lt w
    exact ⟨packetId_ofWord_lt w, hsender, htarget,
      VarInt.length_write32_le hw (toWord_ofWord_le w)⟩

end Header

theorem RawPacket.of_parse {bs : Bytes} {raw : RawPacket} (h : parse bs = .ok raw) :
    Header.read? bs = .ok (raw.header, raw.payload) := by
  rw [parse] at h
  split at h
  · cases h
  · next header payload hread =>
    cases h
    exact hread

/-! ### Packets -/

/-- Under the latest revision one packet is decoded.  It can be sent under the header it came with,
and is written in no more bytes than were read. -/
theorem RawPacket.of_decode_latest {policy : Policy} {raw : RawPacket} {d : Decoded}
    (hid : raw.header.packetId < 1024) (h : raw.decode .latest policy = .ok d) :
    ∃ p, d.packets = [p] ∧ p.Representable .latest policy ∧ p.id = raw.header.packetId ∧
      (p.payload policy.shield).length + d.unread ≤ raw.payload.length := by
  rcases of_decode h with ⟨kind, body, rest, hkind, hread, hpackets, hunread⟩ |
    ⟨hkind, htolerated, hpackets, hunread⟩
  · refine ⟨.known kind body, hpackets, .of_read hkind hread, Revision.id_of_kind? hkind, ?_⟩
    rw [hunread]
    exact Layout.length_write_le hread
  · refine ⟨.unknown raw.header.packetId raw.payload, hpackets, .of_unknown _ hid hkind htolerated,
      rfl, ?_⟩
    rw [hunread]
    exact Nat.le_refl _

/-- **Encoding what was decoded is canonical.**  Bytes that decode under the latest revision hold
one packet.  Encoding it takes no more bytes than were read, and decodes without a warning to the
same header and the same packet; so encoding again what was decoded gives the same bytes. -/
theorem reencode_canonical (policy : Policy) (bs : Bytes) (raw : RawPacket) (d : Decoded)
    (hparse : RawPacket.parse bs = .ok raw) (hdecode : raw.decode .latest policy = .ok d) :
    ∃ p, d.packets = [p] ∧
      (p.encode policy.shield raw.header).length + d.unread ≤ bs.length ∧
      p.echo .latest policy raw.header = .ok (raw.header, .ok ⟨[p], none⟩) ∧
      ∀ raw' d', RawPacket.parse (p.encode policy.shield raw.header) = .ok raw' →
        raw'.decode .latest policy = .ok d' →
        d'.packets.map (fun p' => p'.encode policy.shield raw'.header) =
          [p.encode policy.shield raw.header] := by
  obtain ⟨hid, hsender, htarget, hheader⟩ := Header.of_read? (RawPacket.of_parse hparse)
  obtain ⟨p, hpackets, hp, hpid, hpayload⟩ := RawPacket.of_decode_latest hid hdecode
  have hecho : p.echo .latest policy raw.header = .ok (raw.header, .ok ⟨[p], none⟩) :=
    hp.echo_eq hpid.symm hsender htarget
  refine ⟨p, hpackets, ?_, hecho, ?_⟩
  · rw [Packet.encode, List.length_append]
    omega
  · intro raw' d' hparse' hdecode'
    rw [Packet.echo, hparse'] at hecho
    simp only [hdecode', Except.ok.injEq, Prod.mk.injEq] at hecho
    obtain ⟨hsame, rfl⟩ := hecho
    rw [hsame, List.map_singleton]

/-- The settings of a server in a form that the program never writes: a header of three groups, of
which the last holds a bit that nobody reads, a flag of seven, and a byte after the end. -/
def RawPacket.exampleLoose : Bytes :=
  [0x8F, 0x81, 0x04, 0, 2, 0, 0, 7, 0, 0, 0, 0, 0, 0xFF]

/-- They are written in two bytes less, and come back. -/
theorem reencode_canonical_exampleLoose :
    ∃ (policy : Policy) (raw : RawPacket) (d : Decoded) (p : Packet),
      RawPacket.parse RawPacket.exampleLoose = .ok raw ∧ raw.decode .latest policy = .ok d ∧
      d.packets = [p] ∧ d.unread = 1 ∧
      p.encode policy.shield raw.header = [0x8F, 0x01, 0, 2, 0, 0, 1, 0, 0, 0, 0, 0] ∧
      p.echo .latest policy raw.header = .ok (raw.header, .ok ⟨[p], none⟩) := by
  have hparse : RawPacket.parse RawPacket.exampleLoose =
      .ok ⟨⟨0x8F, 0, 0⟩, RawPacket.exampleLoose.drop 3⟩ := rfl
  have hdecode : RawPacket.decode .latest {} ⟨⟨0x8F, 0, 0⟩, RawPacket.exampleLoose.drop 3⟩ =
      .ok ⟨[.networkSettings { compressionThreshold := 512, throttle := true }],
        some (.trailingBytes .networkSettings 1)⟩ := rfl
  obtain ⟨p, hpackets, -, hecho, -⟩ := reencode_canonical {} _ _ _ hparse hdecode
  refine ⟨{}, _, _, p, hparse, hdecode, hpackets, rfl, ?_, hecho⟩
  rw [← List.singleton_inj.mp hpackets]
  decide

end PackExchange
