import PackExchange.Proofs.Transfer.Delivery
import PackExchange.Proofs.Transfer.Losses

/-!
# Downloads with their records

A server may send any packets in any order, also a second catalog while packs are downloaded.  A
run goes on whatever it sends, and keeps a record of each download.

* `Record` — what went on about one download;
* `Course.Run` — courses whatever the server sends, with the records of their downloads;
* `Accounts` — the records hold all that was handled and sent about downloads;
* `Course.Reachable.exists_run` — courses that keep to the stages are such runs;
* `Fetch.Exclusive` — no pack is downloaded twice at a time;
* `Fetch.work_spec` — what a step of a worker does to its download, and what it asks for.
-/

namespace PackExchange

/-! ### Records -/

/-- The requests for chunks among some packets. -/
def Packet.chunkRequests (ps : List Packet) : List ChunkRequest :=
  ps.filterMap fun p =>
    match p with
    | .chunkRequest r => some r
    | _ => none

namespace Handled

/-- The announcements that were accepted, of all packs. -/
def started (hs : List Handled) : List PackData :=
  hs.filterMap fun h =>
    match h.packet, h.fault with
    | .packData a, none => some a
    | _, _ => none

/-- The chunks that were accepted, of all packs. -/
def stored (hs : List Handled) : List ChunkData :=
  hs.filterMap fun h =>
    match h.packet, h.fault with
    | .chunkData c, none => some c
    | _, _ => none

end Handled

/-- What went on about one download. -/
structure Record where
  announcement : PackData
  /-- What its worker has asked for, in order. -/
  requests : List ChunkRequest := []
  /-- The chunks that were accepted for it, in order. -/
  chunks : List ChunkData := []

namespace Record

/-- The worker asks for chunks. -/
def ask (r : Record) (requests : List ChunkRequest) : Record :=
  { r with requests := r.requests ++ requests }

/-- A chunk is accepted. -/
def accept (r : Record) (c : ChunkData) : Record := { r with chunks := r.chunks ++ [c] }

end Record

/-- Do the records hold all announcements that were accepted, in order, and all chunks that were
accepted and requested, each in one record and in the order in which it came? -/
structure Accounts (records : List Record) (c : Course) : Prop where
  announcements : records.map (·.announcement) = Handled.started c.handled
  chunks : (records.flatMap (·.chunks)).Perm (Handled.stored c.handled)
  requests : (records.flatMap (·.requests)).Perm (Packet.chunkRequests c.sent)
  accepted : ∀ r ∈ records, r.chunks.Sublist (Handled.stored c.handled)
  asked : ∀ r ∈ records, r.requests.Sublist (Packet.chunkRequests c.sent)

/-! ### Runs -/

namespace Fetch

/-- Does a chunk go to this download? -/
def takesChunk (c : ChunkData) (d : Download) : Bool := (PackId.uuidOf? c.uuid).any (takes · d)

/-- The records of the downloads after a packet. -/
def recorded (f : Fetch) (records : List Record) (p : Packet) : List Record :=
  if (f.take p).2.2.isSome then records
  else
    match p with
    | .packData a => records ++ [{ announcement := a }]
    | .chunkData c => records.modify (f.downloads.findIdx (takesChunk c)) (·.accept c)
    | _ => records

end Fetch

namespace Course

/-- The courses that any packets may lead to, with a record of each download. -/
inductive Run (rules : FetchRules) : Course → List Record → Prop
  | start : Run rules (start rules) []
  | hold {c : Course} {records : List Record} (h : Run rules c records) (p : Packet) :
      Run rules { c with held := some p } records
  | handle {c : Course} {records : List Record} (h : Run rules c records) {p : Packet}
      (hsized : p.Sized) : Run rules (c.handle p) (c.fetch.recorded records p)
  | work {c : Course} {records : List Record} (h : Run rules c records) (k : Nat)
      (slotFirst : Bool) :
      Run rules (c.work k slotFirst)
        (records.modify k (·.ask (Packet.chunkRequests (c.fetch.work k slotFirst).2)))
  | cancel {c : Course} {records : List Record} (h : Run rules c records) :
      Run rules { c with fetch := c.fetch.cancel } records

/-- A course that keeps to the stages is such a run. -/
theorem Reachable.exists_run {rules : FetchRules} {c : Course} (h : Reachable rules c)
    (hsized : c.Sized) : ∃ records, Run rules c records := by
  induction h with
  | refl => exact ⟨[], .start⟩
  | tail _ hstep ih =>
    obtain ⟨records, hrun⟩ := ih (hsized.of_step hstep)
    cases hstep with
    | hold hheld hadmits => exact ⟨_, hrun.hold _⟩
    | handle hheld =>
      exact ⟨_, hrun.handle (hsized _ (List.mem_append_right _ (List.mem_singleton_self _)))⟩
    | work k slotFirst => exact ⟨_, hrun.work k slotFirst⟩
    | cancel => exact ⟨_, hrun.cancel⟩

end Course

/-! ### What was handled and sent -/

/-- What a worker asks for. -/
def Download.Deed.requests (reference : String) : Download.Deed → List ChunkRequest
  | .request index => [⟨reference, index⟩]
  | _ => []

theorem Packet.chunkRequests_append (ps qs : List Packet) :
    chunkRequests (ps ++ qs) = chunkRequests ps ++ chunkRequests qs :=
  List.filterMap_append

namespace Handled

theorem started_append (hs : List Handled) (h : Handled) :
    started (hs ++ [h]) = started hs ++ started [h] :=
  List.filterMap_append

theorem stored_append (hs : List Handled) (h : Handled) :
    stored (hs ++ [h]) = stored hs ++ stored [h] :=
  List.filterMap_append

theorem lists_of_fault (p : Packet) (e : TransferError) :
    started [⟨p, some e⟩] = [] ∧ stored [⟨p, some e⟩] = [] := by
  cases p with
  | unknown id bytes => exact ⟨rfl, rfl⟩
  | known kind body => cases kind <;> exact ⟨rfl, rfl⟩

theorem lists_of_not_transfers {p : Packet} (hp : p.transfers = false)
    (fault : Option TransferError) : started [⟨p, fault⟩] = [] ∧ stored [⟨p, fault⟩] = [] := by
  cases p with
  | unknown id bytes => exact ⟨rfl, rfl⟩
  | known kind body =>
    cases kind with
    | packData | chunkData => cases hp
    | _ => exact ⟨rfl, rfl⟩

end Handled

namespace Fetch

/-! ### Which downloads accept chunks -/

/-- Is no pack both waited for and downloaded, and none downloaded twice at a time? -/
structure Exclusive (f : Fetch) : Prop where
  wanted : ∀ w ∈ f.wanted, ∀ d ∈ f.downloads, d.accepting = true → w.id.uuid ≠ d.id.uuid
  separate : Separate f.downloads

theorem exclusive_of_closed {f : Fetch} (h : ∀ d ∈ f.downloads, d.accepting = false) :
    f.Exclusive := by
  have hnone : ∀ {d}, d ∈ f.downloads → ¬ d.accepting = true := fun hd haccepting =>
    Bool.false_ne_true ((h _ hd).symm.trans haccepting)
  exact ⟨fun _ _ _ hd haccepting => absurd haccepting (hnone hd),
    fun _ _ _ _ hj _ haccepting => absurd haccepting (hnone (List.mem_of_getElem? hj))⟩

theorem Exclusive.moves {f : Fetch} (h : f.Exclusive) {k : Nat} {d d' : Download}
    (hk : f.downloads[k]? = some d) (hmoves : d.Moves d') : (f.replace k d').Exclusive := by
  have hopen : d'.accepting = true → d.accepting = true := by
    intro haccepting
    by_contra hclosed
    rw [Bool.not_eq_true] at hclosed
    exact Bool.false_ne_true ((hmoves.of_closed hclosed).1.symm.trans haccepting)
  -- what stands at a place has stood there before, under the same identity
  have hbefore : ∀ {j : Nat} {e : Download}, (f.replace k d').downloads[j]? = some e →
      e.accepting = true →
      ∃ e', f.downloads[j]? = some e' ∧ e'.accepting = true ∧ e'.id = e.id := by
    intro j e he haccepting
    rcases getElem?_set_or he with ⟨rfl, rfl⟩ | ⟨-, he⟩
    · exact ⟨d, hk, hopen haccepting, hmoves.leads.id.symm⟩
    · exact ⟨e, he, haccepting, rfl⟩
  refine ⟨?_, ?_⟩
  · intro w hw e he haccepting
    obtain ⟨j, hj⟩ := List.getElem?_of_mem he
    obtain ⟨e', he', haccepting', hid⟩ := hbefore hj haccepting
    rw [← hid]
    exact h.wanted w hw e' (List.mem_of_getElem? he') haccepting'
  · intro j l e e' hj hl haccepting haccepting' huuid
    obtain ⟨x, hx, hopenx, hidx⟩ := hbefore hj haccepting
    obtain ⟨y, hy, hopeny, hidy⟩ := hbefore hl haccepting'
    exact h.separate hx hy hopenx hopeny (by rw [hidx, hidy]; exact huuid)

theorem Next.exclusive {f f' : Fetch} (hnext : f.Next f') (h : f.Exclusive) : f'.Exclusive := by
  cases hnext with
  | keeps hrules hwanted hdownloads hresolved =>
    refine ⟨?_, ?_⟩
    · rw [hwanted, hdownloads]
      exact h.wanted
    · rw [hdownloads]
      exact h.separate
  | spoils uuid => exact ⟨fun w hw => h.wanted w (List.mem_of_mem_filter hw), h.separate⟩
  | @starts w a hw hsize =>
    have hplace : ∀ {j : Nat} {e : Download},
        (f.downloads ++ [Download.announced w.id w.contentKey a])[j]? = some e →
        f.downloads[j]? = some e ∨ j = f.downloads.length ∧ e.id = w.id := by
      intro j e he
      by_cases hj : j < f.downloads.length
      · rw [List.getElem?_append_left hj] at he
        exact Or.inl he
      · rw [List.getElem?_append_right (Nat.le_of_not_lt hj), List.getElem?_singleton] at he
        split at he
        · next hzero =>
          cases he
          exact Or.inr ⟨by omega, rfl⟩
        · cases he
    refine ⟨?_, ?_⟩
    · intro v hv e he haccepting
      obtain ⟨hmem, hne⟩ := List.mem_filter.mp hv
      rcases List.mem_append.mp he with he | he
      · exact h.wanted v hmem e he haccepting
      · rw [List.mem_singleton] at he
        subst he
        exact bne_iff_ne.mp hne
    · intro j l d e hj hl haccepting haccepting' huuid
      rcases hplace hj with hj | ⟨rfl, hid⟩ <;> rcases hplace hl with hl | ⟨rfl, hid'⟩
      · exact h.separate hj hl haccepting haccepting' huuid
      · rw [hid'] at huuid
        exact absurd huuid.symm (h.wanted w hw d (List.mem_of_getElem? hj) haccepting)
      · rw [hid] at huuid
        exact absurd huuid (h.wanted w hw e (List.mem_of_getElem? hl) haccepting')
      · rfl
  | moves hk hmoves => exact h.moves hk hmoves
  | @delivers _ k d i p hk hworker hlast hyields hrules hwanted hdownloads hresolved =>
    have hne : d.worker ≠ .ended := by rw [hworker]; exact nofun
    have hmoved := h.moves hk (.wakes (.quits hne))
    refine ⟨?_, ?_⟩
    · rw [hwanted, hdownloads]
      exact hmoved.wanted
    · rw [hdownloads]
      exact hmoved.separate

/-! ### Which download a chunk goes to -/

/-- The download that accepts a chunk is found at its place. -/
theorem findIdx_takesChunk {ds : List Download} (hseparate : Separate ds) {k : Nat} {d : Download}
    (hk : ds[k]? = some d) {c : ChunkData} (huuid : PackId.uuidOf? c.uuid = some d.id.uuid)
    (haccepting : d.accepting = true) : ds.findIdx (takesChunk c) = k := by
  have htakes : ∀ e : Download, takesChunk c e = takes d.id.uuid e := by
    intro e
    rw [takesChunk, huuid, Option.any_some]
  obtain ⟨hlt, hget⟩ := List.getElem?_eq_some_iff.mp hk
  rw [List.findIdx_eq hlt, htakes, hget]
  refine ⟨takes_iff.mpr ⟨haccepting, rfl⟩, fun j hj => ?_⟩
  rw [htakes, Bool.eq_false_iff]
  intro hother
  obtain ⟨haccepting', huuid'⟩ := takes_iff.mp hother
  have hj' : ds[j]? = some ds[j] := List.getElem?_eq_getElem _
  exact absurd (hseparate hj' hk haccepting' haccepting huuid') (Nat.ne_of_lt hj)

/-! ### One packet -/

variable {f : Fetch} {records : List Record} {p : Packet}

theorem recorded_of_not_transfers (hp : p.transfers = false) :
    f.recorded records p = records := by
  cases p with
  | unknown id bytes => rfl
  | known kind body =>
    cases kind with
    | packData | chunkData => cases hp
    | _ => exact ite_self _

theorem recorded_of_fault {e : TransferError} (h : (f.take p).2.2 = some e) :
    f.recorded records p = records :=
  if_pos (by rw [h]; rfl)

theorem recorded_announcement {a : PackData} (h : (f.take (.packData a)).2.2 = none) :
    f.recorded records (.packData a) = records ++ [{ announcement := a }] :=
  if_neg (by rw [h]; exact Bool.false_ne_true)

theorem recorded_chunk {c : ChunkData} (h : (f.take (.chunkData c)).2.2 = none) :
    f.recorded records (.chunkData c) =
      records.modify (f.downloads.findIdx (takesChunk c)) (·.accept c) :=
  if_neg (by rw [h]; exact Bool.false_ne_true)

/-- An accepted chunk has a download that it goes to. -/
theorem findIdx_takesChunk_lt (hseparate : Separate f.downloads) {c : ChunkData}
    (h : (f.take (.chunkData c)).2.2 = none) :
    f.downloads.findIdx (takesChunk c) < f.downloads.length := by
  have hreceived := received_takeChunk hseparate c
  rw [take] at h
  revert h hreceived
  generalize f.takeChunk c = r
  intro h hreceived
  cases hreceived with
  | refused e => cases h
  | closed hk huuid haccepting e => cases h
  | stored hk huuid haccepting hfault =>
    rw [findIdx_takesChunk hseparate hk huuid haccepting]
    exact (List.getElem?_eq_some_iff.mp hk).1

theorem downloads_take (hp : p.transfers = false) (hcatalog : ∀ k, p ≠ .catalog k) :
    (f.take p).1.downloads = f.downloads := by
  cases p with
  | unknown id bytes => rfl
  | known kind body =>
    cases kind with
    | packData | chunkData => cases hp
    | catalog => exact absurd rfl (hcatalog body)
    | networkSettings =>
      rw [take, takeSettings]
      split <;> rfl
    | stack =>
      rw [take, takeStack]
      cases body.packs.find? (!f.holds ·) <;> rfl
    | _ => rfl

theorem downloads_takeCatalog (k : Catalog) :
    (f.take (.catalog k)).1.downloads = f.downloads.map Download.close := by
  rw [take, takeCatalog_eq]

theorem chunkRequests_take (f : Fetch) (p : Packet) : Packet.chunkRequests (f.take p).2.1 = [] := by
  cases p with
  | unknown id bytes => rfl
  | known kind body =>
    cases kind with
    | catalog =>
      rw [take, takeCatalog_eq]
      rfl
    | stack =>
      rw [take, takeStack]
      cases body.packs.find? (!f.holds ·) <;> rfl
    | _ => rfl

theorem exclusive_take (h : f.Exclusive) (p : Packet) : (f.take p).1.Exclusive := by
  by_cases hcatalog : ∃ k, p = .catalog k
  · obtain ⟨k, rfl⟩ := hcatalog
    refine exclusive_of_closed fun d hd => ?_
    rw [downloads_takeCatalog] at hd
    obtain ⟨e, -, rfl⟩ := List.mem_map.mp hd
    rfl
  · exact (next_take h.separate fun k hk => hcatalog ⟨k, hk⟩).exclusive h

/-! ### One step of a worker -/

theorem countOff_lists (f : Fetch) :
    f.countOff.1.downloads = f.downloads ∧ Packet.chunkRequests f.countOff.2 = [] := by
  rw [countOff]
  split <;> exact ⟨rfl, rfl⟩

/-- What a step of a worker does to its download, and what it asks for. -/
theorem work_spec (f : Fetch) (k : Nat) (slotFirst : Bool) :
    (f.downloads[k]? = none ∧ f.work k slotFirst = (f, [])) ∨
      ∃ d x, f.downloads[k]? = some d ∧ d.Woken x ∧
        (f.work k slotFirst).1.downloads = f.downloads.set k x.1 ∧
        Packet.chunkRequests (f.work k slotFirst).2 = x.2.requests d.reference := by
  rw [work]
  split
  · next hnone => exact Or.inl ⟨hnone, rfl⟩
  · next d hk =>
    refine Or.inr ⟨d, d.wake f.cancelled slotFirst, hk, d.woken_wake _ _, ?_⟩
    have hwoken := d.woken_wake f.cancelled slotFirst
    revert hwoken
    generalize d.wake f.cancelled slotFirst = x
    intro hwoken
    cases hwoken with
    | idle | quits hworker | asks hworker hmore | takes hworker hslot => exact ⟨rfl, rfl⟩
    | finishes hworker hlast =>
      show ((f.replace k { d with worker := .ended }).complete d d.data).1.downloads = _ ∧
        Packet.chunkRequests ((f.replace k { d with worker := .ended }).complete d d.data).2 = []
      rcases complete_eq_or (f.replace k { d with worker := .ended }) d with
        hdrop | ⟨p, -, hdeliver⟩
      · rw [hdrop]
        exact ⟨rfl, rfl⟩
      · rw [hdeliver]
        exact countOff_lists _

end Fetch

end PackExchange
