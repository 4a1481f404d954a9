import PackExchange.Proofs.Transfer.Course

/-!
# Workers after a cancellation

A worker runs from one wait to the next.  Once everything is cancelled it gives up when it runs
again, wherever it stands and whatever wakes it: it may not have started, it may wait, and there may
be a chunk in its slot, even the last one.  Nothing of this is seen outside its own download.

* `Fetch.resume` — a worker runs on to its next wait;
* `Fetch.Event`, `Fetch.goOn` — whatever may happen to a client's side, and what it sends;
* `Fetch.take_withDownloads` — how packets are answered does not depend on the downloads;
* `Fetch.resume_cancelled` — a worker that runs after a cancellation;
* `Fetch.cancel_silences` — all workers, whatever happens after a cancellation.
-/

namespace PackExchange

/-! ### One worker -/

namespace Download

/-- A worker that is about to ask for a chunk gives up. -/
theorem wake_ready_cancelled {d : Download} {i : UInt32} (h : d.worker = .ready i)
    (slotFirst : Bool) : d.wake true slotFirst = d.abandon := by
  rw [wake, h]
  rfl

/-- **A worker does nothing to the outside.**  It ends, or it takes the chunk that has woken it. -/
theorem wake_cancelled (d : Download) (slotFirst : Bool) :
    (d.wake true slotFirst).2 = .nothing ∧ ((d.wake true slotFirst).1.worker = .ended ∨
      ∃ i, (d.wake true slotFirst).1.worker = .ready i) := by
  cases hworker : d.worker with
  | ended =>
    have hidle : d.wake true slotFirst = (d, .nothing) := by rw [wake, hworker]
    rw [hidle]
    exact ⟨rfl, Or.inl hworker⟩
  | ready i =>
    rw [wake_ready_cancelled hworker]
    exact ⟨rfl, Or.inl rfl⟩
  | waiting i =>
    have hwake : d.wake true slotFirst = d.abandon ∨ ∃ d', d.wake true slotFirst = (d', .nothing) ∧
        d'.worker = .ready (i + 1) := by
      rw [wake, hworker]
      cases slotFirst with
      | false => exact Or.inl rfl
      | true =>
        cases d.slot with
        | none =>
          left
          simp only [Bool.not_true, Bool.and_false, Bool.false_eq_true, if_false]
        | some chunk => exact Or.inr ⟨_, rfl, rfl⟩
    rcases hwake with hquits | ⟨d', htakes, hready⟩
    · rw [hquits]
      exact ⟨rfl, Or.inl rfl⟩
    · rw [htakes]
      exact ⟨rfl, Or.inr ⟨i + 1, hready⟩⟩

end Download

namespace Fetch

/-- The worker of one download runs on to its next wait.  One that has taken a chunk from its slot
does not wait before it goes on. -/
def resume (f : Fetch) (k : Nat) (slotFirst : Bool) : Fetch × List Packet :=
  let (f, sent) := f.work k slotFirst
  match f.downloads[k]?.map (·.worker) with
  | some (Worker.ready _) =>
    let (f, more) := f.work k slotFirst
    (f, sent ++ more)
  | _ => (f, sent)

/-- The same with other downloads. -/
def withDownloads (f : Fetch) (ds : List Download) : Fetch := { f with downloads := ds }

/-- A step of a worker after a cancellation. -/
theorem work_cancelled {f : Fetch} (h : f.cancelled = true) {k : Nat} {d : Download}
    (hk : f.downloads[k]? = some d) (slotFirst : Bool) :
    f.work k slotFirst = (f.replace k (d.wake true slotFirst).1, []) := by
  simp only [work, hk, h, (d.wake_cancelled slotFirst).1]
  rw [replace, ← h]

/-- **A worker that runs after a cancellation ends**, and sends nothing.  Nothing changes but its own
download. -/
theorem resume_cancelled {f : Fetch} (h : f.cancelled = true) (k : Nat) (slotFirst : Bool) :
    ∃ ds, f.resume k slotFirst = (f.withDownloads ds, []) ∧
      (∀ d, ds[k]? = some d → d.worker = .ended) ∧ ∀ j, j ≠ k → ds[j]? = f.downloads[j]? := by
  cases hk : f.downloads[k]? with
  | none =>
    refine ⟨f.downloads, ?_, ?_, fun _ _ => rfl⟩
    · simp only [resume, work, hk]
      rfl
    · rw [hk]
      intro d hd
      cases hd
  | some d =>
    have hlt : k < f.downloads.length := (List.getElem?_eq_some_iff.mp hk).1
    have hset : ∀ d' : Download, (f.replace k d').downloads[k]? = some d' :=
      fun d' => List.getElem?_set_self hlt
    have hother : ∀ (d' : Download) (j : Nat), j ≠ k →
        (f.downloads.set k d')[j]? = f.downloads[j]? :=
      fun d' j hj => List.getElem?_set_ne (Ne.symm hj)
    rcases (d.wake_cancelled slotFirst).2 with hended | ⟨i, hready⟩
    · refine ⟨f.downloads.set k (d.wake true slotFirst).1, ?_, ?_, hother _⟩
      · rw [resume, work_cancelled h hk]
        simp only [hset, Option.map_some, hended]
        rfl
      · intro e he
        rw [List.getElem?_set_self hlt] at he
        cases he
        exact hended
    · -- it has taken the chunk, and gives up where it would go on
      have hagain : (f.replace k (d.wake true slotFirst).1).work k slotFirst =
          ((f.replace k (d.wake true slotFirst).1).replace k
            (d.wake true slotFirst).1.abandon.1, []) := by
        rw [work_cancelled (f := f.replace k _) h (hset _), Download.wake_ready_cancelled hready]
      refine ⟨f.downloads.set k (d.wake true slotFirst).1.abandon.1, ?_, ?_, hother _⟩
      · rw [resume, work_cancelled h hk]
        simp only [hset, Option.map_some, hready, hagain]
        simp only [replace, List.set_set]
        rfl
      · intro e he
        rw [List.getElem?_set_self hlt] at he
        cases he
        rfl

/-! ### Packets -/

/-- The agreement on compression changes nothing but the stage. -/
theorem takeSettings_eq (f : Fetch) :
    f.takeSettings =
      { f with stage := if f.stage = .awaitingNetworkSettings then .awaitingCatalog else f.stage } := by
  rw [takeSettings]
  split <;> rfl

/-- A chunk changes nothing but downloads. -/
theorem takeChunk_eq (f : Fetch) (c : ChunkData) :
    (f.takeChunk c).1 = f.withDownloads (f.takeChunk c).1.downloads := by
  rw [takeChunk]
  split
  · rfl
  · split <;> rfl

/-- **How a packet is answered does not depend on the downloads**, nor does what it changes beside
them. -/
theorem take_withDownloads (f : Fetch) (ds : List Download) (p : Packet) :
    ∃ ds', ((f.withDownloads ds).take p).1 = (f.take p).1.withDownloads ds' ∧
      ((f.withDownloads ds).take p).2.1 = (f.take p).2.1 := by
  cases p with
  | unknown id bytes => exact ⟨ds, rfl, rfl⟩
  | known kind body =>
    cases kind with
    | networkSettings =>
      refine ⟨ds, ?_, rfl⟩
      show (f.withDownloads ds).takeSettings = f.takeSettings.withDownloads ds
      rw [takeSettings_eq, takeSettings_eq]
      rfl
    | catalog =>
      simp only [take, takeCatalog_eq]
      exact ⟨ds.map Download.close, rfl, rfl⟩
    | packData =>
      refine ⟨((f.withDownloads ds).takeAnnouncement body).1.downloads, ?_, rfl⟩
      simp only [take, takeAnnouncement, withDownloads]
      split
      · rfl
      · split
        · rfl
        · split
          · rfl
          · split <;> rfl
    | chunkData =>
      refine ⟨((f.withDownloads ds).takeChunk body).1.downloads, ?_, rfl⟩
      show ((f.withDownloads ds).takeChunk body).1 = (f.takeChunk body).1.withDownloads _
      rw [takeChunk_eq, takeChunk_eq f]
      rfl
    | stack =>
      refine ⟨ds, ?_⟩
      have hholds : (f.withDownloads ds).holds = f.holds := rfl
      simp only [take, takeStack, hholds]
      cases body.packs.find? (!f.holds ·) with
      | none => exact ⟨rfl, rfl⟩
      | some e => exact ⟨rfl, rfl⟩
    | _ => exact ⟨ds, rfl, rfl⟩

/-- No packet resolves a pack or takes a cancellation back. -/
theorem take_keeps (f : Fetch) (p : Packet) :
    (f.take p).1.resolved = f.resolved ∧ (f.take p).1.cancelled = f.cancelled := by
  cases p with
  | unknown id bytes => exact ⟨rfl, rfl⟩
  | known kind body =>
    cases kind with
    | networkSettings =>
      show f.takeSettings.resolved = _ ∧ f.takeSettings.cancelled = _
      rw [takeSettings_eq]
      exact ⟨rfl, rfl⟩
    | catalog =>
      show (f.takeCatalog body).1.resolved = _ ∧ (f.takeCatalog body).1.cancelled = _
      rw [takeCatalog_eq]
      exact ⟨rfl, rfl⟩
    | packData =>
      have hannounced := f.announced_takeAnnouncement body
      show (f.takeAnnouncement body).1.resolved = _ ∧ (f.takeAnnouncement body).1.cancelled = _
      generalize f.takeAnnouncement body = r at hannounced
      cases hannounced <;> exact ⟨rfl, rfl⟩
    | chunkData =>
      show (f.takeChunk body).1.resolved = _ ∧ (f.takeChunk body).1.cancelled = _
      rw [takeChunk_eq]
      exact ⟨rfl, rfl⟩
    | stack =>
      simp only [take, takeStack]
      cases body.packs.find? (!f.holds ·) with
      | none => exact ⟨rfl, rfl⟩
      | some e => exact ⟨rfl, rfl⟩
    | _ => exact ⟨rfl, rfl⟩

/-! ### Whatever happens -/

/-- What may happen to a client's side.  Any packet may be handled, whether its stage admits it or
not, and any worker may be woken. -/
inductive Event where
  | take (p : Packet)
  | resume (k : Nat) (slotFirst : Bool)
  | cancel

/-- Does a worker run? -/
def Event.ofWorker : Event → Bool
  | resume .. => true
  | _ => false

/-- The client's side after an event, and what is sent. -/
def goOn (f : Fetch) : Event → Fetch × List Packet
  | .take p => ((f.take p).1, (f.take p).2.1)
  | .resume k slotFirst => f.resume k slotFirst
  | .cancel => (f.cancel, [])

/-- The client's side after events one after another, and all that is sent. -/
def goOnAll (f : Fetch) : List Event → Fetch × List Packet
  | [] => (f, [])
  | e :: es =>
    let (f, sent) := f.goOn e
    let (f, more) := goOnAll f es
    (f, sent ++ more)

/-- What happens after a cancellation does not take it back, and resolves no pack. -/
theorem goOn_keeps {f : Fetch} (h : f.cancelled = true) (e : Event) :
    (f.goOn e).1.cancelled = true ∧ (f.goOn e).1.resolved = f.resolved := by
  cases e with
  | take p =>
    obtain ⟨hresolved, hcancelled⟩ := f.take_keeps p
    exact ⟨hcancelled.trans h, hresolved⟩
  | resume k slotFirst =>
    obtain ⟨ds, hresume, -⟩ := resume_cancelled h k slotFirst
    rw [goOn, hresume]
    exact ⟨h, rfl⟩
  | cancel => exact ⟨rfl, rfl⟩

theorem goOnAll_keeps {f : Fetch} (h : f.cancelled = true) (es : List Event) :
    (f.goOnAll es).1.cancelled = true ∧ (f.goOnAll es).1.resolved = f.resolved := by
  induction es generalizing f with
  | nil => exact ⟨h, rfl⟩
  | cons e es ih =>
    obtain ⟨hcancelled, hresolved⟩ := goOn_keeps h e
    obtain ⟨hcancelled', hresolved'⟩ := ih hcancelled
    exact ⟨hcancelled', hresolved'.trans hresolved⟩

/-- **After a cancellation it is as if there were no workers.**  All else goes on as without them. -/
theorem goOnAll_unmanned {f : Fetch} (h : f.cancelled = true) (ds : List Download)
    (es : List Event) :
    ∃ ds', ((f.withDownloads ds).goOnAll es).1 =
        (f.goOnAll (es.filter (!·.ofWorker))).1.withDownloads ds' ∧
      ((f.withDownloads ds).goOnAll es).2 = (f.goOnAll (es.filter (!·.ofWorker))).2 := by
  induction es generalizing f ds with
  | nil => exact ⟨ds, rfl, rfl⟩
  | cons e es ih =>
    cases e with
    | take p =>
      obtain ⟨ds₁, hside, hsent⟩ := f.take_withDownloads ds p
      obtain ⟨ds₂, hside', hsent'⟩ := ih ((f.take_keeps p).2.trans h) ds₁
      refine ⟨ds₂, ?_, ?_⟩
      · simp only [goOnAll, goOn, hside]
        exact hside'
      · simp only [goOnAll, goOn, hside, hsent, hsent']
        rfl
    | resume k slotFirst =>
      have hcancelled : (f.withDownloads ds).cancelled = true := h
      obtain ⟨ds₁, hresume, -⟩ := resume_cancelled hcancelled k slotFirst
      obtain ⟨ds₂, hside, hsent⟩ := ih h ds₁
      refine ⟨ds₂, ?_, ?_⟩
      · simp only [goOnAll, goOn, hresume]
        exact hside
      · simp only [goOnAll, goOn, hresume]
        exact hsent
    | cancel => exact ih (f := f.cancel) rfl ds

/-- **A cancellation silences the workers.**  Let a client's side be in any state, with any number of
workers anywhere, let it be cancelled there, and let anything happen afterwards: packets are handled,
admitted or not, and workers are woken in any order and by anything.  At every such moment a worker
that runs on sends nothing and ends, and changes nothing but its own download, so neither the
resolved packs nor the count nor the stage.  What is sent all in all, and all but the downloads, is
what it would be if no worker had run at all, and no pack is resolved any more. -/
theorem cancel_silences (f : Fetch) (es : List Event) :
    let run := f.cancel.goOnAll es
    let unmanned := f.cancel.goOnAll (es.filter (!·.ofWorker))
    (∀ k slotFirst, ∃ ds, run.1.resume k slotFirst = ({ run.1 with downloads := ds }, []) ∧
        (∀ d, ds[k]? = some d → d.worker = .ended) ∧ ∀ j, j ≠ k → ds[j]? = run.1.downloads[j]?) ∧
      run.2 = unmanned.2 ∧ run.1 = { unmanned.1 with downloads := run.1.downloads } ∧
      run.1.resolved = f.resolved := by
  intro run unmanned
  obtain ⟨hcancelled, hresolved⟩ := goOnAll_keeps (f := f.cancel) rfl es
  obtain ⟨ds, hside, hsent⟩ := goOnAll_unmanned (f := f.cancel) rfl f.cancel.downloads es
  refine ⟨resume_cancelled hcancelled, hsent, ?_, hresolved⟩
  show run.1 = unmanned.1.withDownloads run.1.downloads
  rw [show run.1 = unmanned.1.withDownloads ds from hside]
  rfl

end Fetch

end PackExchange
