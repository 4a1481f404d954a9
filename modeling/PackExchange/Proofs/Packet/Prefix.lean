import PackExchange.Proofs.Packet.Translation
import PackExchange.Proofs.Wire.Steady

/-!
# Packets end where they end

The payload of a known kind says by itself how long it is.  If some bytes decode cleanly, then what
is left when some of them are cut off does not decode, and what is added to them is left unread.

* `RawPacket.parse_append`, `RawPacket.parse_cut` — the header of more bytes, and of fewer;
* `RawPacket.decode_append`, `RawPacket.decode_cut` — the payload;
* `decode_exact` — the raw packet as a whole.
-/

namespace PackExchange

open Packet (Kind)

namespace RawPacket

/-! ### Headers -/

/-- What follows a raw packet follows its payload. -/
theorem parse_append {bs : Bytes} {raw : RawPacket} (h : parse bs = .ok raw) (more : Bytes) :
    parse (bs ++ more) = .ok ⟨raw.header, raw.payload ++ more⟩ := by
  simp only [parse, Header.read?] at h ⊢
  cases hword : VarInt.read32 bs with
  | error e => simp only [hword, reduceCtorEq] at h
  | ok r =>
    simp only [hword, Except.ok.injEq] at h
    subst h
    simp only [VarInt.steady_read32.value hword more]

/-- **What is left of a raw packet** either has the whole header, or bytes of it are missing. -/
theorem parse_cut {front back : Bytes} {raw : RawPacket} (h : parse (front ++ back) = .ok raw) :
    (∃ payload, raw.payload = payload ++ back ∧ parse front = .ok ⟨raw.header, payload⟩) ∨
      ∃ needed remaining, parse front = .error (.truncated (.notEnoughData needed remaining)) := by
  simp only [parse, Header.read?] at h ⊢
  cases hword : VarInt.read32 (front ++ back) with
  | error e => simp only [hword, reduceCtorEq] at h
  | ok r =>
    simp only [hword, Except.ok.injEq] at h
    subst h
    rcases VarInt.steady_read32.cut hword with ⟨payload, hpayload, hfront⟩ |
      ⟨needed, remaining, hfront⟩
    · refine Or.inl ⟨payload, hpayload, ?_⟩
      simp only [hfront]
    · refine Or.inr ⟨needed, remaining, ?_⟩
      simp only [hfront]

/-! ### Payloads -/

/-- What a payload of a known kind holds that was decoded cleanly: a body, and nothing after it. -/
theorem read_of_decode {r : Revision} {policy : Policy} {raw : RawPacket} {d : Decoded} {kind : Kind}
    (hkind : r.kind? raw.header.packetId = some kind) (h : raw.decode r policy = .ok d)
    (hclean : d.warning = none) :
    ∃ body, (kind.layout policy.shield).read policy.limits raw.payload = .ok (body, []) ∧
      d.packets = r.toLatest (.known kind body) := by
  rcases of_decode h with ⟨kind', body, rest, hkind', hread, hpackets, hunread⟩ | ⟨hnone, -⟩
  · obtain rfl : kind = kind' := Option.some.inj (hkind.symm.trans hkind')
    have hrest : rest.length = 0 := by rw [← hunread, Decoded.unread, hclean]
    rw [List.length_eq_zero_iff.mp hrest] at hread
    exact ⟨body, hread, hpackets⟩
  · rw [hkind] at hnone
    cases hnone

variable {r : Revision} {policy : Policy} {header : Header} {kind : Kind}

/-- **Bytes after a body** are counted, and change nothing of what the body stands for. -/
theorem decode_append {payload : Bytes} {body : kind.Body} {more : Bytes}
    (hkind : r.kind? header.packetId = some kind)
    (hread : (kind.layout policy.shield).read policy.limits payload = .ok (body, []))
    (hmore : more ≠ []) :
    decode r policy ⟨header, payload ++ more⟩ =
      if policy.disconnectOnInvalid then .error (.trailingBytes kind more.length)
      else .ok ⟨r.toLatest (.known kind body), some (.trailingBytes kind more.length)⟩ := by
  have hlonger := (kind.layout policy.shield).steady policy.limits |>.value hread more
  have hunread : more.isEmpty = false := List.isEmpty_eq_false_iff.mpr hmore
  simp only [decode, hkind, decodeKnown, hlonger, List.nil_append, hunread, Bool.false_eq_true,
    if_false]

/-- **A body that was cut off** is malformed, since bytes are missing. -/
theorem decode_cut {front back : Bytes} {body : kind.Body}
    (hkind : r.kind? header.packetId = some kind)
    (hread : (kind.layout policy.shield).read policy.limits (front ++ back) = .ok (body, []))
    (hback : back ≠ []) :
    ∃ needed remaining, decode r policy ⟨header, front⟩ =
      .error (.malformed kind (.notEnoughData needed remaining)) := by
  rcases ((kind.layout policy.shield).steady policy.limits).cut hread with ⟨tail, htail, -⟩ |
    ⟨needed, remaining, hfront⟩
  · exact absurd (List.append_eq_nil_iff.mp htail.symm).2 hback
  · refine ⟨needed, remaining, ?_⟩
    simp only [decode, hkind, decodeKnown, hfront]

end RawPacket

/-! ### Raw packets -/

/-- **A raw packet of a known kind ends where it ends.**  Of one that decodes cleanly every proper
prefix is refused, since bytes are missing, be it bytes of the header or of the body; and bytes that
follow it are counted, be it as the error or as a warning that comes with the same packets. -/
theorem decode_exact (r : Revision) (policy : Policy) (bs : Bytes) (raw : RawPacket) (d : Decoded)
    (kind : Kind) (hparse : RawPacket.parse bs = .ok raw) (hdecode : raw.decode r policy = .ok d)
    (hclean : d.warning = none) (hkind : r.kind? raw.header.packetId = some kind) :
    (∀ front back, bs = front ++ back → back ≠ [] →
      (∃ needed remaining, RawPacket.parse front =
          .error (.truncated (.notEnoughData needed remaining))) ∨
        ∃ short needed remaining, RawPacket.parse front = .ok short ∧
          short.decode r policy = .error (.malformed kind (.notEnoughData needed remaining))) ∧
      ∀ more, more ≠ [] → ∃ long, RawPacket.parse (bs ++ more) = .ok long ∧
        long.decode r policy =
          if policy.disconnectOnInvalid then .error (.trailingBytes kind more.length)
          else .ok ⟨d.packets, some (.trailingBytes kind more.length)⟩ := by
  obtain ⟨body, hread, hpackets⟩ := RawPacket.read_of_decode hkind hdecode hclean
  refine ⟨?_, ?_⟩
  · rintro front back rfl hback
    rcases RawPacket.parse_cut hparse with ⟨payload, hpayload, hshort⟩ | hmissing
    · rw [hpayload] at hread
      obtain ⟨needed, remaining, hrefused⟩ := RawPacket.decode_cut hkind hread hback
      exact Or.inr ⟨_, needed, remaining, hshort, hrefused⟩
    · exact Or.inl hmissing
  · intro more hmore
    refine ⟨_, RawPacket.parse_append hparse more, ?_⟩
    rw [RawPacket.decode_append hkind hread hmore, hpackets]

/-- A client's answer that asks for one pack. -/
def RawPacket.exampleAnswer : Bytes := [0x08, 2, 1, 0, 2, 0x61, 0x62]

/-- Without its pack it is malformed, and two bytes after it are two bytes too many. -/
theorem decode_exact_exampleAnswer :
    ∃ (policy : Policy) (raw : RawPacket) (d : Decoded),
      RawPacket.parse RawPacket.exampleAnswer = .ok raw ∧ raw.decode .r712 policy = .ok d ∧
      d.warning = none ∧ Revision.r712.kind? raw.header.packetId = some .clientResponse ∧
      (∃ short needed remaining, RawPacket.parse (RawPacket.exampleAnswer.take 4) = .ok short ∧
        short.decode .r712 policy =
          .error (.malformed .clientResponse (.notEnoughData needed remaining))) ∧
      ∃ long, RawPacket.parse (RawPacket.exampleAnswer ++ [0, 0]) = .ok long ∧
        long.decode .r712 policy = .error (.trailingBytes .clientResponse 2) := by
  have hparse : RawPacket.parse RawPacket.exampleAnswer =
      .ok ⟨⟨0x08, 0, 0⟩, RawPacket.exampleAnswer.drop 1⟩ := rfl
  have hdecode : RawPacket.decode .r712 { disconnectOnInvalid := true, limits := true }
      ⟨⟨0x08, 0, 0⟩, RawPacket.exampleAnswer.drop 1⟩ =
        .ok ⟨[.clientResponse { response := 2, packs := ["ab"] }], none⟩ := rfl
  obtain ⟨hcut, happend⟩ := decode_exact .r712 { disconnectOnInvalid := true, limits := true } _ _ _
    .clientResponse hparse hdecode rfl (by decide)
  refine ⟨{ disconnectOnInvalid := true, limits := true }, _, _, hparse, hdecode, rfl, by decide, ?_,
    happend [0, 0] (by decide)⟩
  rcases hcut (RawPacket.exampleAnswer.take 4) (RawPacket.exampleAnswer.drop 4) rfl (by decide) with
    ⟨needed, remaining, hheader⟩ | hbody
  · cases hheader
  · exact hbody

end PackExchange
