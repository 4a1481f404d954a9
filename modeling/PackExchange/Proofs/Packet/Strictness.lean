import PackExchange.Proofs.Packet.Translation

/-!
# Stricter policies

Two settings of a policy say what ends a session.  What a raw packet turns out to be does not depend
on them; they say only what is made of it.

* `Finding` and `RawPacket.find` — what a raw packet turns out to be;
* `Finding.judge` — what a policy makes of it, and `RawPacket.decode_eq`: this is how packets are
  decoded;
* `Policy.Stricter` — two policies that read alike, one of them stricter;
* `decode_stricter` — what decoding under the one says about decoding under the other.
-/

namespace PackExchange

open Packet (Kind)

/-! ### What a raw packet turns out to be -/

/-- What a raw packet turns out to be, before the policy says what to make of it. -/
inductive Finding where
  | clean (packets : List Packet)
  | unknown (id : UInt32) (payload : Bytes)
  | malformed (kind : Kind) (cause : WireError)
  /-- A body was read, and bytes are left. -/
  | overlong (kind : Kind) (packets : List Packet) (remaining : Nat)

/-- What a raw packet of a revision turns out to be. -/
def RawPacket.find (r : Revision) (shield : Int32) (limits : Bool) (raw : RawPacket) : Finding :=
  match r.kind? raw.header.packetId with
  | none => .unknown raw.header.packetId raw.payload
  | some kind =>
    match (kind.layout shield).read limits raw.payload with
    | .error cause => .malformed kind cause
    | .ok (body, rest) =>
      if rest.isEmpty then .clean (r.toLatest (.known kind body))
      else .overlong kind (r.toLatest (.known kind body)) rest.length

/-- What a policy makes of it. -/
def Finding.judge (policy : Policy) : Finding → Except DecodeError Decoded
  | clean packets => .ok ⟨packets, none⟩
  | unknown id payload =>
    if policy.disconnectOnUnknown then .error (.unknownPacket id)
    else .ok ⟨[.unknown id payload], none⟩
  | malformed kind cause => .error (.malformed kind cause)
  | overlong kind packets remaining =>
    if policy.disconnectOnInvalid then .error (.trailingBytes kind remaining)
    else .ok ⟨packets, some (.trailingBytes kind remaining)⟩

/-- **The policy decides last.**  Decoding finds out what the raw packet is, and only then the policy
says what is made of it. -/
theorem RawPacket.decode_eq (r : Revision) (policy : Policy) (raw : RawPacket) :
    raw.decode r policy = (raw.find r policy.shield policy.limits).judge policy := by
  rw [decode, find]
  cases r.kind? raw.header.packetId with
  | none => cases r <;> rfl
  | some kind =>
    simp only [decodeKnown]
    cases (kind.layout policy.shield).read policy.limits raw.payload with
    | error cause => rfl
    | ok result =>
      by_cases hempty : result.2.isEmpty
      · simp [hempty, Finding.judge]
      · simp [hempty, Finding.judge]

/-! ### Two policies -/

/-- Do two policies read alike, and does the first end the session wherever the second does? -/
structure Policy.Stricter (strict lenient : Policy) : Prop where
  shield : strict.shield = lenient.shield
  limits : strict.limits = lenient.limits
  unknown : lenient.disconnectOnUnknown = true → strict.disconnectOnUnknown = true
  invalid : lenient.disconnectOnInvalid = true → strict.disconnectOnInvalid = true

namespace Finding

variable {strict lenient policy : Policy} {f : Finding} {d : Decoded} {e : DecodeError}

/-- What the stricter policy accepts, the other accepts in the same way. -/
theorem judge_ok (h : strict.Stricter lenient) (hstrict : f.judge strict = .ok d) :
    f.judge lenient = .ok d := by
  have hunknown := h.unknown
  have hinvalid := h.invalid
  cases f with
  | clean packets => exact hstrict
  | malformed kind cause => cases hstrict
  | unknown id payload =>
    by_cases hflag : strict.disconnectOnUnknown <;> simp_all [judge]
  | overlong kind packets remaining =>
    by_cases hflag : strict.disconnectOnInvalid <;> simp_all [judge]

/-- What the more lenient policy refuses, the other refuses for the same reason. -/
theorem judge_error (h : strict.Stricter lenient) (hlenient : f.judge lenient = .error e) :
    f.judge strict = .error e := by
  cases f with
  | clean packets => cases hlenient
  | malformed kind cause => exact hlenient
  | unknown id payload =>
    by_cases hflag : lenient.disconnectOnUnknown
    · simp_all [judge, h.unknown hflag]
    · simp [judge, hflag] at hlenient
  | overlong kind packets remaining =>
    by_cases hflag : lenient.disconnectOnInvalid
    · simp_all [judge, h.invalid hflag]
    · simp [judge, hflag] at hlenient

/-- Whatever the policy, bytes that cannot be read are an error, and there is no other way to that
error. -/
theorem judge_malformed {kind : Kind} {cause : WireError} :
    f.judge policy = .error (.malformed kind cause) ↔ f = .malformed kind cause := by
  constructor
  · intro hjudge
    cases f with
    | clean packets => cases hjudge
    | malformed kind' cause' =>
      cases hjudge
      rfl
    | unknown id payload =>
      by_cases hflag : policy.disconnectOnUnknown <;> simp [judge, hflag] at hjudge
    | overlong kind' packets remaining =>
      by_cases hflag : policy.disconnectOnInvalid <;> simp [judge, hflag] at hjudge
  · rintro rfl
    rfl

/-- Where two policies part, the packet is unknown or too long. -/
theorem of_judge_error_ok (hstrict : f.judge strict = .error e) (hlenient : f.judge lenient = .ok d) :
    (∃ id payload, f = .unknown id payload ∧ e = .unknownPacket id ∧
        d = ⟨[.unknown id payload], none⟩) ∨
      ∃ kind packets remaining, f = .overlong kind packets remaining ∧
        e = .trailingBytes kind remaining ∧ d = ⟨packets, some e⟩ := by
  cases f with
  | clean packets => cases hstrict
  | malformed kind cause => cases hlenient
  | unknown id payload =>
    refine Or.inl ⟨id, payload, rfl, ?_⟩
    by_cases hstrict' : strict.disconnectOnUnknown <;>
      by_cases hlenient' : lenient.disconnectOnUnknown <;> simp_all [judge]
  | overlong kind packets remaining =>
    refine Or.inr ⟨kind, packets, remaining, rfl, ?_⟩
    by_cases hstrict' : strict.disconnectOnInvalid <;>
      by_cases hlenient' : lenient.disconnectOnInvalid <;> simp_all [judge]

/-- **An error that does not end the session** is that of bytes that cannot be read. -/
theorem disconnects_of_judge (h : f.judge policy = .error e) :
    e.disconnects policy = false ↔
      (∃ kind cause, e = .malformed kind cause) ∧ policy.disconnectOnInvalid = false := by
  cases f with
  | clean packets => cases h
  | malformed kind cause =>
    cases h
    simp [DecodeError.disconnects]
  | unknown id payload =>
    by_cases hflag : policy.disconnectOnUnknown
    · simp only [judge, hflag, if_true, Except.error.injEq] at h
      subst h
      simp [DecodeError.disconnects, hflag]
    · simp [judge, hflag] at h
  | overlong kind packets remaining =>
    by_cases hflag : policy.disconnectOnInvalid
    · simp only [judge, hflag, if_true, Except.error.injEq] at h
      subst h
      simp [DecodeError.disconnects, hflag]
    · simp [judge, hflag] at h

end Finding

/-! ### Raw packets -/

namespace RawPacket

variable {r : Revision} {shield : Int32} {limits : Bool} {raw : RawPacket}

/-- A raw packet that turns out to be unknown is so under its own id, and whole. -/
theorem of_find_unknown {id : UInt32} {payload : Bytes}
    (h : raw.find r shield limits = .unknown id payload) :
    id = raw.header.packetId ∧ payload = raw.payload := by
  rw [find] at h
  split at h
  · cases h
    exact ⟨rfl, rfl⟩
  · split at h
    · cases h
    · split at h <;> cases h

/-- A raw packet that turns out to be too long holds a body of its kind, with bytes after it. -/
theorem of_find_overlong {kind : Kind} {packets : List Packet} {remaining : Nat}
    (h : raw.find r shield limits = .overlong kind packets remaining) :
    ∃ body rest, r.kind? raw.header.packetId = some kind ∧
      (kind.layout shield).read limits raw.payload = .ok (body, rest) ∧ rest ≠ [] ∧
      packets = r.toLatest (.known kind body) ∧ remaining = rest.length := by
  rw [find] at h
  split at h
  · cases h
  · next kind' hkind =>
    split at h
    · cases h
    · next body rest hread =>
      split at h
      · cases h
      · next hrest =>
        cases h
        refine ⟨body, rest, hkind, hread, ?_, rfl, rfl⟩
        simpa using hrest

end RawPacket

/-- **The flags decide what is fatal, and nothing else.**  Take two policies of which one is stricter.
Bytes that cannot be read are the same error under both.  What the stricter accepts, the other accepts
with the same packets and the same warning, and what the other refuses, the stricter refuses for the
same reason.  Where they part, the raw packet is either of an unknown id, and then the more lenient
policy keeps it whole and without a warning; or there are bytes after its body, and then the more
lenient policy gives the packets that the body stands for, and the error as the warning.  Under any
policy the only error that does not end the session is that of bytes that cannot be read, where such
bytes are tolerated. -/
theorem decode_stricter (r : Revision) (strict lenient : Policy) (h : strict.Stricter lenient)
    (raw : RawPacket) :
    (∀ kind cause, raw.decode r strict = .error (.malformed kind cause) ↔
        raw.decode r lenient = .error (.malformed kind cause)) ∧
      (∀ d, raw.decode r strict = .ok d → raw.decode r lenient = .ok d) ∧
      (∀ e, raw.decode r lenient = .error e → raw.decode r strict = .error e) ∧
      (∀ e d, raw.decode r strict = .error e → raw.decode r lenient = .ok d →
        (e = .unknownPacket raw.header.packetId ∧
            d = ⟨[.unknown raw.header.packetId raw.payload], none⟩) ∨
          ∃ kind body rest, r.kind? raw.header.packetId = some kind ∧
            (kind.layout lenient.shield).read lenient.limits raw.payload = .ok (body, rest) ∧
            rest ≠ [] ∧ e = .trailingBytes kind rest.length ∧
            d = ⟨r.toLatest (.known kind body), some e⟩) ∧
      ∀ policy e, raw.decode r policy = .error e →
        (e.disconnects policy = false ↔
          (∃ kind cause, e = .malformed kind cause) ∧ policy.disconnectOnInvalid = false) := by
  have hstrict : raw.decode r strict =
      (raw.find r lenient.shield lenient.limits).judge strict := by
    rw [RawPacket.decode_eq, h.shield, h.limits]
  rw [hstrict, RawPacket.decode_eq r lenient]
  refine ⟨?_, fun d => Finding.judge_ok h, fun e => Finding.judge_error h, ?_, ?_⟩
  · intro kind cause
    rw [Finding.judge_malformed, Finding.judge_malformed]
  · intro e d hrefused haccepted
    rcases Finding.of_judge_error_ok hrefused haccepted with
      ⟨id, payload, hfind, rfl, rfl⟩ | ⟨kind, packets, remaining, hfind, rfl, rfl⟩
    · obtain ⟨rfl, rfl⟩ := RawPacket.of_find_unknown hfind
      exact Or.inl ⟨rfl, rfl⟩
    · obtain ⟨body, rest, hkind, hread, hrest, rfl, rfl⟩ := RawPacket.of_find_overlong hfind
      exact Or.inr ⟨kind, body, rest, hkind, hread, hrest, rfl, rfl⟩
  · intro policy e hrefused
    rw [RawPacket.decode_eq] at hrefused
    exact Finding.disconnects_of_judge hrefused

/-- A login status with two bytes after it ends the session under the one policy, and is a login status
with a warning under the other, which ends the session over an unknown id. -/
theorem decode_stricter_exampleLong :
    ∃ (strict lenient : Policy) (raw : RawPacket) (e : DecodeError) (d : Decoded),
      strict.Stricter lenient ∧ lenient.disconnectOnUnknown = true ∧
      raw.decode .r712 strict = .error e ∧ raw.decode .r712 lenient = .ok d ∧
      d.packets = [.playStatus .playerSpawn] ∧ d.warning = some e ∧ e.disconnects strict = true := by
  let strict : Policy :=
    { disconnectOnUnknown := true, disconnectOnInvalid := true, shield := 355, limits := true }
  let lenient : Policy := { strict with disconnectOnInvalid := false }
  let raw : RawPacket := ⟨⟨0x02, 0, 0⟩, [0, 0, 0, 3, 0xAA, 0xBB]⟩
  have h : strict.Stricter lenient := ⟨rfl, rfl, fun _ => rfl, fun _ => rfl⟩
  have hrefused : raw.decode .r712 strict = .error (.trailingBytes .playStatus 2) := rfl
  have haccepted : raw.decode .r712 lenient =
      .ok ⟨[.playStatus .playerSpawn], some (.trailingBytes .playStatus 2)⟩ := rfl
  obtain ⟨-, -, -, hparts, hends⟩ := decode_stricter .r712 strict lenient h raw
  refine ⟨strict, lenient, raw, _, _, h, rfl, hrefused, haccepted, rfl, ?_, ?_⟩
  · rcases hparts _ _ hrefused haccepted with ⟨hunknown, -⟩ | ⟨kind, body, rest, -, -, -, -, hd⟩
    · cases hunknown
    · rw [hd]
  · rw [← Bool.not_eq_false, hends strict _ hrefused]
    rintro ⟨-, htolerated⟩
    cases htolerated

end PackExchange
