import PackExchange.Proofs.Transfer.Records

/-!
# Requests for chunks

Each worker asks for the chunks of its pack one after another, and asks for the next only when it
has taken the one before, whatever the server sends and whenever the workers run.

* `Record.Disciplined` — what the record of a download has to look like;
* `Record.Kept` — the invariant of one download, with a lemma for each move;
* `Fetch.kept_take`, `Fetch.kept_work` — the invariant of all downloads;
* `Accounts.announce`, `Accounts.accept`, `Accounts.ask` — what the records hold after a step;
* `Course.Run.accounts` — the records hold all that was handled and sent about downloads;
* `Course.disciplined` — what holds of every download in every run.
-/

namespace PackExchange

namespace Record

/-! ### One download -/

/-- How many chunks the announcement makes, by its sizes. -/
def chunkCount (r : Record) : Nat :=
  (Download.chunksOf r.announcement.size r.announcement.chunkSize).toNat

/-- Does the worker of a download ask for one chunk after another, and is no more accepted than was
announced? -/
structure Disciplined (r : Record) (d : Download) : Prop where
  /-- Every request spells the pack as the announcement does. -/
  named : ∀ q ∈ r.requests, q.uuid = r.announcement.uuid
  /-- The requests are numbered from zero without a gap. -/
  numbered : r.requests.map (·.index.toNat) = List.range r.requests.length
  atMost : r.requests.length ≤ r.chunkCount
  /-- A chunk is asked for when all chunks before it have been taken. -/
  afterTaken : r.requests.length ≤ d.taken.length + 1
  /-- At most one request waits for its chunk. -/
  unanswered : r.requests.length ≤ r.chunks.length + 1
  /-- Accepted chunks have been taken, but for one at most that is in the slot. -/
  data : r.chunks.map (·.data) = d.taken.reverse ++ d.slot.toList
  /-- The accepted chunks are numbered as the requests are. -/
  ordered : r.chunks.map (·.index.toNat) = List.range r.chunks.length
  /-- Every accepted chunk but the last is as long as announced. -/
  whole : ∀ i c, r.chunks[i]? = some c → i + 1 < max r.chunkCount r.chunks.length →
    c.data.length = r.announcement.chunkSize.toNat
  bounded : (r.chunks.map (·.data.length)).sum ≤ r.announcement.size.toNat

/-- How a download stands to its record. -/
structure Kept (r : Record) (d : Download) : Prop where
  fed : d.Fed r.chunks
  reference : d.reference = r.announcement.uuid
  size : d.size = r.announcement.size
  chunkSize : d.chunkSize = r.announcement.chunkSize
  named : ∀ q ∈ r.requests, q.uuid = d.reference
  numbered : r.requests.map (·.index.toNat) = List.range r.requests.length
  atMost : r.requests.length ≤ d.chunkCount.toNat
  afterTaken : r.requests.length ≤ d.taken.length + 1
  ready : ∀ i, d.worker = .ready i → r.requests.length = i.toNat
  waiting : ∀ i, d.worker = .waiting i → r.requests.length = i.toNat + 1

variable {r : Record} {d : Download}

theorem kept_announced (id : PackId) (contentKey : String) {a : PackData}
    (hchunk : a.chunkSize ≠ 0) (hsize : a.size ≠ 0) :
    Kept { announcement := a } (.announced id contentKey a) where
  fed := Download.fed_announced id contentKey hchunk hsize
  reference := rfl
  size := rfl
  chunkSize := rfl
  named := nofun
  numbered := rfl
  atMost := Nat.zero_le _
  afterTaken := Nat.zero_le _
  ready := by
    intro i hi
    cases hi
    rfl
  waiting := nofun

theorem Kept.put (h : r.Kept d) {c : ChunkData} (haccepting : d.accepting = true)
    (hfault : d.fault? c = none) (hlength : c.data.length < 2 ^ 32) : (r.accept c).Kept (d.put c) :=
  ⟨h.fed.put haccepting hfault hlength, h.reference, h.size, h.chunkSize, h.named, h.numbered,
    h.atMost, h.afterTaken, h.ready, h.waiting⟩

theorem Kept.close (h : r.Kept d) : r.Kept d.close :=
  ⟨h.fed.close, h.reference, h.size, h.chunkSize, h.named, h.numbered, h.atMost, h.afterTaken,
    h.ready, h.waiting⟩

/-- **The worker keeps to its record.**  What it asks for next is the chunk after those that it has
asked for, and it has taken them all. -/
theorem Kept.wake (h : r.Kept d) {x : Download × Download.Deed} (hwoken : d.Woken x) :
    (r.ask (x.2.requests d.reference)).Kept x.1 := by
  have hfed := hwoken.fed h.fed
  have hsame : r.ask [] = r := by rw [ask, List.append_nil]
  cases hwoken with
  | idle =>
    show (r.ask []).Kept d
    rw [hsame]
    exact h
  | quits hworker | finishes hworker hlast =>
    show (r.ask []).Kept { d with worker := .ended }
    rw [hsame]
    exact ⟨hfed, h.reference, h.size, h.chunkSize, h.named, h.numbered, h.atMost, h.afterTaken,
      nofun, nofun⟩
  | @takes i chunk hworker hslot =>
    obtain ⟨hi, hmore⟩ := h.fed.paced.waiting i hworker
    have hasked := h.waiting i hworker
    show (r.ask []).Kept _
    rw [hsame]
    refine ⟨hfed, h.reference, h.size, h.chunkSize, h.named, h.numbered, h.atMost, ?_, ?_, nofun⟩
    · show r.requests.length ≤ (chunk :: d.taken).length + 1
      rw [List.length_cons]
      omega
    · intro j hj
      cases hj
      rw [hasked, Download.toNat_succ hmore d.chunkCount.toNat_lt]
  | @asks i hworker hmore =>
    have hasked := h.ready i hworker
    have htaken := h.fed.paced.ready i hworker
    have hlength : (r.ask [⟨d.reference, i⟩]).requests.length = i.toNat + 1 := by
      rw [ask, List.length_append, hasked]
      rfl
    show (r.ask [⟨d.reference, i⟩]).Kept { d with worker := .waiting i }
    refine ⟨hfed, h.reference, h.size, h.chunkSize, ?_, ?_, ?_, ?_, nofun, ?_⟩
    · intro q hq
      rcases List.mem_append.mp hq with hq | hq
      · exact h.named q hq
      · rw [List.mem_singleton] at hq
        rw [hq]
    · rw [hlength]
      show (r.requests ++ [(⟨d.reference, i⟩ : ChunkRequest)]).map _ = List.range (i.toNat + 1)
      rw [List.map_append, h.numbered, hasked, List.range_succ]
      rfl
    · rw [hlength]
      exact hmore
    · rw [hlength, htaken]
    · intro j hj
      cases hj
      exact hlength

theorem Kept.toDisciplined (h : r.Kept d) : r.Disciplined d := by
  have hcount : r.chunkCount = d.chunkCount.toNat := by
    rw [chunkCount, h.fed.paced.chunkCount, h.size, h.chunkSize]
  refine ⟨?_, h.numbered, ?_, h.afterTaken, ?_, h.fed.data, ?_, ?_, ?_⟩
  · rw [← h.reference]
    exact h.named
  · rw [hcount]
    exact h.atMost
  · have hexpected := h.fed.paced.expected
    have hafter := h.afterTaken
    rw [h.fed.length_eq]
    omega
  · rw [h.fed.length_eq]
    exact h.fed.indices
  · intro i c hi hmore
    rw [← h.chunkSize]
    refine h.fed.whole i c hi ?_
    have hbounded := h.fed.paced.bounded
    have hlength := h.fed.length_eq
    rw [hcount] at hmore
    rw [Download.most] at hbounded ⊢
    omega
  · rw [h.fed.received, ← h.size]
    exact h.fed.room

end Record

/-! ### All downloads -/

namespace Fetch

variable {f : Fetch} {records : List Record} {p : Packet}

/-- Another state of one element, beside another record of it. -/
theorem forall₂_modify_set {α β : Type} {R : α → β → Prop} {xs : List α} {ys : List β}
    (h : List.Forall₂ R xs ys) {k : Nat} {y y' : β} {g : α → α} (hk : ys[k]? = some y)
    (hstep : ∀ x, R x y → R (g x) y') : List.Forall₂ R (xs.modify k g) (ys.set k y') := by
  induction h generalizing k with
  | nil => cases hk
  | cons hhead htail ih =>
    cases k with
    | zero =>
      cases hk
      exact .cons (hstep _ hhead) htail
    | succ k => exact .cons hhead (ih hk)

/-- **A packet keeps the records.** -/
theorem kept_take (hexclusive : f.Exclusive)
    (h : List.Forall₂ Record.Kept records f.downloads) (hsized : p.Sized) :
    List.Forall₂ Record.Kept (f.recorded records p) (f.take p).1.downloads := by
  cases htransfers : p.transfers with
  | false =>
    rw [recorded_of_not_transfers htransfers]
    by_cases hcatalog : ∃ k, p = .catalog k
    · obtain ⟨k, rfl⟩ := hcatalog
      rw [downloads_takeCatalog, List.forall₂_map_right_iff]
      exact h.imp fun _ _ hkept => hkept.close
    · rw [downloads_take htransfers fun k hk => hcatalog ⟨k, hk⟩]
      exact h
  | true =>
    obtain ⟨a, rfl⟩ | ⟨c, rfl⟩ := Packet.eq_of_transfers htransfers
    · have hannounced := f.announced_takeAnnouncement a
      show List.Forall₂ _ (if (f.takeAnnouncement a).2.isSome then records
        else records ++ [{ announcement := a }]) (f.takeAnnouncement a).1.downloads
      revert hannounced
      generalize f.takeAnnouncement a = r
      intro hannounced
      cases hannounced with
      | refused e => exact h
      | spoiled hw huuid e => exact h
      | started hw huuid hchunk hsize =>
        exact List.rel_append h (.cons (Record.kept_announced _ _ hchunk hsize) .nil)
    · have hreceived := received_takeChunk hexclusive.separate c
      show List.Forall₂ _ (if (f.takeChunk c).2.isSome then records
        else records.modify (f.downloads.findIdx (takesChunk c)) (·.accept c))
        (f.takeChunk c).1.downloads
      revert hreceived
      generalize f.takeChunk c = r
      intro hreceived
      cases hreceived with
      | refused e => exact h
      | @closed k d hk huuid haccepting e =>
        have hclosed := forall₂_modify_set (g := id) h hk fun _ hkept => hkept.close
        rw [List.modify_id] at hclosed
        exact hclosed
      | stored hk huuid haccepting hfault =>
        show List.Forall₂ _ (records.modify (f.downloads.findIdx _) _) _
        rw [findIdx_takesChunk hexclusive.separate hk huuid haccepting]
        exact forall₂_modify_set h hk fun _ hkept => hkept.put haccepting hfault hsized

/-- **A worker keeps the records.** -/
theorem kept_work (h : List.Forall₂ Record.Kept records f.downloads) (k : Nat) (slotFirst : Bool) :
    List.Forall₂ Record.Kept
      (records.modify k (·.ask (Packet.chunkRequests (f.work k slotFirst).2)))
      (f.work k slotFirst).1.downloads := by
  rcases f.work_spec k slotFirst with ⟨hnone, hwork⟩ | ⟨d, x, hk, hwoken, hdownloads, hrequests⟩
  · have hlength := h.length_eq
    rw [List.getElem?_eq_none_iff] at hnone
    rw [hwork, List.modify_eq_self (by omega)]
    exact h
  · rw [hdownloads, hrequests]
    exact forall₂_modify_set h hk fun _ hkept => hkept.wake hwoken

end Fetch

/-! ### Records that change -/

theorem map_modify_of_eq {α β : Type} {f : α → β} {g : α → α} (h : ∀ x, f (g x) = f x)
    (xs : List α) (k : Nat) : (xs.modify k g).map f = xs.map f := by
  induction xs generalizing k with
  | nil => rw [List.modify_nil]
  | cons x xs ih =>
    cases k with
    | zero => rw [List.modify_zero_cons, List.map_cons, List.map_cons, h]
    | succ k => rw [List.modify_succ_cons, List.map_cons, List.map_cons, ih]

theorem flatMap_modify_of_eq {α β : Type} {f : α → List β} {g : α → α} (h : ∀ x, f (g x) = f x)
    (xs : List α) (k : Nat) : (xs.modify k g).flatMap f = xs.flatMap f := by
  rw [List.flatMap_def, List.flatMap_def, map_modify_of_eq h]

theorem perm_flatMap_modify {α β : Type} {f : α → List β} {g : α → α} {ys : List β}
    (h : ∀ x, f (g x) = f x ++ ys) {xs : List α} {k : Nat} (hk : k < xs.length) :
    ((xs.modify k g).flatMap f).Perm (xs.flatMap f ++ ys) := by
  induction xs generalizing k with
  | nil => cases hk
  | cons x xs ih =>
    cases k with
    | zero =>
      rw [List.modify_zero_cons, List.flatMap_cons, List.flatMap_cons, h, List.append_assoc,
        List.append_assoc]
      exact (List.perm_append_comm).append_left _
    | succ k =>
      rw [List.modify_succ_cons, List.flatMap_cons, List.flatMap_cons, List.append_assoc]
      exact (ih (Nat.lt_of_succ_lt_succ hk)).append_left _

/-- What every element lists in order is still in order when one of them lists more at the end. -/
theorem sublist_of_mem_modify {α β : Type} {f : α → List β} {g : α → α} {ys zs : List β}
    (h : ∀ x, f (g x) = f x ++ ys) {xs : List α} (hxs : ∀ x ∈ xs, (f x).Sublist zs) (k : Nat) :
    ∀ x ∈ xs.modify k g, (f x).Sublist (zs ++ ys) := by
  intro x hx
  obtain ⟨i, hi⟩ := List.getElem?_of_mem hx
  rw [List.getElem?_modify] at hi
  obtain ⟨y, hy, rfl⟩ := Option.map_eq_some_iff.mp hi
  have hsublist := hxs y (List.mem_of_getElem? hy)
  split
  · rw [h]
    exact hsublist.append_right ys
  · exact hsublist.trans (List.sublist_append_left zs ys)

theorem sublist_of_mem_modify_of_eq {α β : Type} {f : α → List β} {g : α → α} {zs : List β}
    (h : ∀ x, f (g x) = f x) {xs : List α} (hxs : ∀ x ∈ xs, (f x).Sublist zs) (k : Nat) :
    ∀ x ∈ xs.modify k g, (f x).Sublist zs := by
  have happend : ∀ x, f (g x) = f x ++ [] := fun x => by rw [h, List.append_nil]
  have hall := sublist_of_mem_modify happend hxs k
  rw [List.append_nil] at hall
  exact hall

/-! ### What the records hold -/

namespace Accounts

variable {records : List Record} {c c' : Course}

/-- What is not about downloads. -/
theorem of_eq (h : Accounts records c)
    (hstarted : Handled.started c'.handled = Handled.started c.handled)
    (hstored : Handled.stored c'.handled = Handled.stored c.handled)
    (hsent : Packet.chunkRequests c'.sent = Packet.chunkRequests c.sent) :
    Accounts records c' := by
  obtain ⟨hannouncements, hchunks, hrequests, haccepted, hasked⟩ := h
  rw [← hstarted] at hannouncements
  rw [← hstored] at hchunks haccepted
  rw [← hsent] at hrequests hasked
  exact ⟨hannouncements, hchunks, hrequests, haccepted, hasked⟩

/-- An announcement is accepted. -/
theorem announce (h : Accounts records c) {a : PackData}
    (hstarted : Handled.started c'.handled = Handled.started c.handled ++ [a])
    (hstored : Handled.stored c'.handled = Handled.stored c.handled)
    (hsent : Packet.chunkRequests c'.sent = Packet.chunkRequests c.sent) :
    Accounts (records ++ [{ announcement := a }]) c' := by
  refine ⟨?_, ?_, ?_, ?_, ?_⟩
  · rw [hstarted, List.map_append, h.announcements]
    rfl
  · rw [hstored, List.flatMap_append, List.flatMap_singleton, List.append_nil]
    exact h.chunks
  · rw [hsent, List.flatMap_append, List.flatMap_singleton, List.append_nil]
    exact h.requests
  · rw [hstored]
    exact List.forall_mem_append.mpr
      ⟨h.accepted, List.forall_mem_singleton.mpr (List.nil_sublist _)⟩
  · rw [hsent]
    exact List.forall_mem_append.mpr ⟨h.asked, List.forall_mem_singleton.mpr (List.nil_sublist _)⟩

/-- A chunk is accepted. -/
theorem accept (h : Accounts records c) {k : Nat} (hk : k < records.length)
    {chunk : ChunkData} (hstarted : Handled.started c'.handled = Handled.started c.handled)
    (hstored : Handled.stored c'.handled = Handled.stored c.handled ++ [chunk])
    (hsent : Packet.chunkRequests c'.sent = Packet.chunkRequests c.sent) :
    Accounts (records.modify k (·.accept chunk)) c' := by
  refine ⟨?_, ?_, ?_, ?_, ?_⟩
  · rw [hstarted, ← h.announcements]
    exact map_modify_of_eq (by intro r; rfl) _ _
  · rw [hstored]
    exact (perm_flatMap_modify (fun _ => rfl) hk).trans (h.chunks.append_right _)
  · rw [hsent]
    refine List.Perm.trans (List.Perm.of_eq ?_) h.requests
    exact flatMap_modify_of_eq (by intro r; rfl) _ _
  · rw [hstored]
    exact sublist_of_mem_modify (fun _ => rfl) h.accepted k
  · rw [hsent]
    exact sublist_of_mem_modify_of_eq (by intro r; rfl) h.asked k

/-- Chunks are asked for. -/
theorem ask (h : Accounts records c) {k : Nat} (hk : k < records.length)
    {requests : List ChunkRequest}
    (hstarted : Handled.started c'.handled = Handled.started c.handled)
    (hstored : Handled.stored c'.handled = Handled.stored c.handled)
    (hsent : Packet.chunkRequests c'.sent = Packet.chunkRequests c.sent ++ requests) :
    Accounts (records.modify k (·.ask requests)) c' := by
  refine ⟨?_, ?_, ?_, ?_, ?_⟩
  · rw [hstarted, ← h.announcements]
    exact map_modify_of_eq (by intro r; rfl) _ _
  · rw [hstored]
    refine List.Perm.trans (List.Perm.of_eq ?_) h.chunks
    exact flatMap_modify_of_eq (by intro r; rfl) _ _
  · rw [hsent]
    exact (perm_flatMap_modify (fun _ => rfl) hk).trans (h.requests.append_right _)
  · rw [hstored]
    exact sublist_of_mem_modify_of_eq (by intro r; rfl) h.accepted k
  · rw [hsent]
    exact sublist_of_mem_modify (fun _ => rfl) h.asked k

end Accounts

namespace Course

variable {rules : FetchRules} {c : Course} {records : List Record}

theorem Run.kept (h : Run rules c records) :
    c.fetch.Exclusive ∧ List.Forall₂ Record.Kept records c.fetch.downloads := by
  induction h with
  | start => exact ⟨Fetch.exclusive_of_closed (fun _ hd => nomatch hd), .nil⟩
  | hold _ p ih => exact ih
  | @handle c records _ p hsized ih =>
    exact ⟨Fetch.exclusive_take ih.1 p, Fetch.kept_take ih.1 ih.2 hsized⟩
  | @work c records _ k slotFirst ih =>
    exact ⟨(c.fetch.worked_work k slotFirst).next.exclusive ih.1, Fetch.kept_work ih.2 k slotFirst⟩
  | cancel _ ih => exact ⟨⟨ih.1.wanted, ih.1.separate⟩, ih.2⟩

theorem accounts_handle (h : Accounts records c) (hexclusive : c.fetch.Exclusive)
    (hlength : records.length = c.fetch.downloads.length) (p : Packet) :
    Accounts (c.fetch.recorded records p) (c.handle p) := by
  have hsent : Packet.chunkRequests (c.handle p).sent = Packet.chunkRequests c.sent := by
    rw [handle, Packet.chunkRequests_append, Fetch.chunkRequests_take, List.append_nil]
  have hstarted : Handled.started (c.handle p).handled = Handled.started c.handled ++ _ :=
    Handled.started_append _ _
  have hstored : Handled.stored (c.handle p).handled = Handled.stored c.handled ++ _ :=
    Handled.stored_append _ _
  cases hfault : (c.fetch.take p).2.2 with
  | some e =>
    obtain ⟨hnone, hnone'⟩ := Handled.lists_of_fault p e
    rw [hfault, hnone, List.append_nil] at hstarted
    rw [hfault, hnone', List.append_nil] at hstored
    rw [Fetch.recorded_of_fault hfault]
    exact h.of_eq hstarted hstored hsent
  | none =>
    rw [hfault] at hstarted hstored
    cases htransfers : p.transfers with
    | false =>
      obtain ⟨hnone, hnone'⟩ := Handled.lists_of_not_transfers htransfers none
      rw [hnone, List.append_nil] at hstarted
      rw [hnone', List.append_nil] at hstored
      rw [Fetch.recorded_of_not_transfers htransfers]
      exact h.of_eq hstarted hstored hsent
    | true =>
      obtain ⟨a, rfl⟩ | ⟨chunk, rfl⟩ := Packet.eq_of_transfers htransfers
      · rw [Fetch.recorded_announcement hfault]
        exact h.announce hstarted (hstored.trans (List.append_nil _)) hsent
      · have hplace := Fetch.findIdx_takesChunk_lt hexclusive.separate hfault
        rw [← hlength] at hplace
        rw [Fetch.recorded_chunk hfault]
        exact h.accept hplace (hstarted.trans (List.append_nil _)) hstored hsent

theorem accounts_work (h : Accounts records c)
    (hlength : records.length = c.fetch.downloads.length) (k : Nat) (slotFirst : Bool) :
    Accounts (records.modify k (·.ask (Packet.chunkRequests (c.fetch.work k slotFirst).2)))
      (c.work k slotFirst) := by
  have hsent : Packet.chunkRequests (c.work k slotFirst).sent =
      Packet.chunkRequests c.sent ++ Packet.chunkRequests (c.fetch.work k slotFirst).2 :=
    Packet.chunkRequests_append _ _
  rcases c.fetch.work_spec k slotFirst with ⟨hnone, hwork⟩ | ⟨d, x, hk, -⟩
  · have hlate : records.length ≤ k := by
      rw [hlength]
      exact List.getElem?_eq_none_iff.mp hnone
    rw [List.modify_eq_self hlate]
    rw [hwork] at hsent
    exact h.of_eq rfl rfl (hsent.trans (List.append_nil _))
  · have hplace : k < records.length := by
      rw [hlength]
      exact (List.getElem?_eq_some_iff.mp hk).1
    exact h.ask hplace rfl rfl hsent

/-- The records hold what was handled and sent. -/
theorem Run.accounts (h : Run rules c records) : Accounts records c := by
  induction h with
  | start => exact ⟨rfl, .nil, .nil, nofun, nofun⟩
  | hold _ p ih => exact ih.of_eq rfl rfl rfl
  | handle hrun hsized ih =>
    exact accounts_handle ih hrun.kept.1 hrun.kept.2.length_eq _
  | work hrun k slotFirst ih => exact accounts_work ih hrun.kept.2.length_eq k slotFirst
  | cancel _ ih => exact ih.of_eq rfl rfl rfl

/-- **The workers ask for one chunk after another.**  A course that keeps to the stages is a run;
but a run goes on whatever the server sends and whenever the workers are woken.  In each there is a
record for each announcement that was accepted, and the records hold all requests that were sent
and all chunks that were accepted, in order.  Each worker asks for the chunks of its pack by the name that the
announcement gives, in order and once at most, and for the next when it has taken the one before.
Chunks are accepted in order, all but the last as long as announced, and no more bytes than
announced; and no pack has two downloads that accept its chunks. -/
theorem disciplined (rules : FetchRules) :
    (∀ c, Reachable rules c → c.Sized → ∃ records, Run rules c records) ∧
      ∀ c records, Run rules c records →
        List.Forall₂ Record.Disciplined records c.fetch.downloads ∧ Accounts records c ∧
          Fetch.Separate c.fetch.downloads := by
  refine ⟨fun c h hsized => h.exists_run hsized, fun c records h => ⟨?_, h.accounts, ?_⟩⟩
  · exact h.kept.2.imp fun _ _ hkept => hkept.toDisciplined
  · exact h.kept.1.separate

/-- The client of two downloads of one pack: the catalog came again after the first chunk, and the
pack was announced again.  First, a client that keeps to the stages. -/
theorem disciplined_exampleTwice :
    (∃ c records, Reachable {} c ∧ c.sent.length = 2 ∧ Run {} c records) ∧
      ∃ (c : Course) (records : List Record), Run {} c records ∧
        records.map (·.requests.map (·.index)) = [[0, 1], [0]] ∧
        c.fetch.downloads.map (·.accepting) = [false, true] ∧
        List.Forall₂ Record.Disciplined records c.fetch.downloads ∧ Accounts records c := by
  let name := "00000000-0000-0000-0000-000000000001"
  let catalog : Catalog := { packs := [{ uuid := ⟨0, 1⟩, size := 3 }] }
  let announcement : PackData := { uuid := name, chunkSize := 2, size := 3 }
  have hchunk : Packet.Sized (.chunkData { uuid := name, data := [7, 8] }) := by
    show 2 < 2 ^ 32
    decide
  refine ⟨?_, ?_⟩
  · have hsettings : Reachable {} ((start {}).handle (.networkSettings {})) :=
      Reachable.pass .refl rfl (by decide +kernel)
    have hcatalog := hsettings.pass (p := .catalog catalog) rfl (by decide +kernel)
    have hannounced := hcatalog.pass (p := .packData announcement) rfl (by decide +kernel)
    have hasked := Relation.ReflTransGen.tail hannounced (.work _ 0 false)
    have htaken := Reachable.pass hasked
      (p := .chunkData { uuid := name, data := [7, 8] }) rfl (by decide +kernel)
    obtain ⟨records, hrun⟩ := (disciplined {}).1 _ htaken (by
      refine List.forall_mem_cons.mpr ⟨trivial, List.forall_mem_cons.mpr ⟨trivial, ?_⟩⟩
      exact List.forall_mem_cons.mpr ⟨trivial, List.forall_mem_singleton.mpr hchunk⟩)
    exact ⟨_, records, htaken, by decide +kernel, hrun⟩
  · have hasked : Run {} _ _ :=
      (((Run.start).handle (p := .catalog catalog) trivial).handle
        (p := .packData announcement) trivial).work 0 false
    have htaken : Run {} _ _ := (hasked.handle hchunk).work 0 false
    have htwice : Run {} _ _ :=
      (((htaken.handle (p := .catalog catalog) trivial).work 0 false).handle
        (p := .packData announcement) trivial).work 1 false
    obtain ⟨hdisciplined, haccounts, -⟩ := (disciplined {}).2 _ _ htwice
    exact ⟨_, _, htwice, by decide +kernel, by decide +kernel, hdisciplined, haccounts⟩

end Course

end PackExchange
