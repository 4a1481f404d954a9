import Mathlib.Algebra.GroupWithZero.Nat
import Mathlib.Data.List.Nodup
import PackExchange.Proofs.Transfer.Catalog
import PackExchange.Transfer.Fetch

/-!
# What one packet or one step of a worker changes

Each function of the client's side is opened here once.  What it may do is listed by cases, and
everything about whole runs rests on the lists alone.

* `Download.awake`, `Download.Woken` — has a worker something to do, and what it may do when it is
  woken;
* `Download.Leads` — a later state of the same download;
* `Download.Yields` — the pack that a finished download stands for;
* `Fetch.takeCatalog_eq`, `Fetch.countOff_eq` — the catalog and the count in one equation each;
* `Fetch.Announced`, `Fetch.Received` — what an announcement and a chunk may change;
* `Fetch.Worked` — what a step of a worker may change;
* `Download.stepsLeft`, `Fetch.stepsLeft` — how long workers go on without more chunks, with
  `Fetch.stepsLeft_work`.
-/

namespace PackExchange

namespace Download

/-! ### One download -/

/-- The bytes that the worker has taken. -/
def data (d : Download) : Bytes := d.taken.reverse.flatten

/-- Is the other a later state of this download?  What the announcement has fixed stays, and a
worker that has ended does nothing any more. -/
structure Leads (d d' : Download) : Prop where
  id : d'.id = d.id
  reference : d'.reference = d.reference
  size : d'.size = d.size
  contentKey : d'.contentKey = d.contentKey
  hash : d'.hash = d.hash
  chunkSize : d'.chunkSize = d.chunkSize
  chunkCount : d'.chunkCount = d.chunkCount
  ended : d.worker = .ended → d'.worker = .ended ∧ d'.taken = d.taken

theorem Leads.refl (d : Download) : d.Leads d :=
  ⟨rfl, rfl, rfl, rfl, rfl, rfl, rfl, fun h => ⟨h, rfl⟩⟩

theorem leads_close (d : Download) : d.Leads d.close :=
  ⟨rfl, rfl, rfl, rfl, rfl, rfl, rfl, fun h => ⟨h, rfl⟩⟩

theorem leads_put (d : Download) (c : ChunkData) : d.Leads (d.put c) :=
  ⟨rfl, rfl, rfl, rfl, rfl, rfl, rfl, fun h => ⟨h, rfl⟩⟩

/-- Has the worker something to do? -/
def awake (d : Download) (cancelled : Bool) : Bool :=
  match d.worker with
  | .ended => false
  | .ready _ => true
  | .waiting _ => cancelled || d.slot.isSome || !d.accepting

/-- What a worker may do when it is woken. -/
inductive Woken (d : Download) : Download × Deed → Prop
  | idle : Woken d (d, .nothing)
  | quits (hworker : d.worker ≠ .ended) : Woken d ({ d with worker := .ended }, .nothing)
  | asks {i : UInt32} (hworker : d.worker = .ready i) (hmore : i < d.chunkCount) :
      Woken d ({ d with worker := .waiting i }, .request i)
  | takes {i : UInt32} {chunk : Bytes} (hworker : d.worker = .waiting i)
      (hslot : d.slot = some chunk) :
      Woken d
        ({ d with slot := none, taken := chunk :: d.taken, worker := .ready (i + 1) }, .nothing)
  | finishes {i : UInt32} (hworker : d.worker = .ready i) (hlast : ¬ i < d.chunkCount) :
      Woken d ({ d with worker := .ended }, .finish d.data)

theorem woken_wake (d : Download) (cancelled slotFirst : Bool) :
    d.Woken (d.wake cancelled slotFirst) := by
  rw [wake]
  split
  · exact .idle
  · next i hworker =>
    have hquits : d.worker ≠ .ended := by rw [hworker]; exact nofun
    rw [advance]
    split
    · exact .quits hquits
    · split
      · next hmore => exact .asks hworker hmore
      · next hlast => exact .finishes hworker hlast
  · next i hworker =>
    have hquits : d.worker ≠ .ended := by rw [hworker]; exact nofun
    split
    · exact .quits hquits
    · split
      · next chunk hslot => exact .takes hworker hslot
      · split
        · exact .idle
        · exact .quits hquits

theorem Woken.leads {d : Download} {r : Download × Deed} (h : d.Woken r) : d.Leads r.1 := by
  have hrest : ∀ {w : Worker}, d.worker = w → w ≠ .ended →
      ∀ {w' : Worker} {ts : List Bytes}, d.worker = .ended → w' = .ended ∧ ts = d.taken :=
    fun hw hne _ _ hended => absurd (hw.symm.trans hended) hne
  cases h with
  | idle => exact Leads.refl d
  | quits hworker => exact ⟨rfl, rfl, rfl, rfl, rfl, rfl, rfl, fun _ => ⟨rfl, rfl⟩⟩
  | asks hworker _ => exact ⟨rfl, rfl, rfl, rfl, rfl, rfl, rfl, hrest hworker nofun⟩
  | takes hworker _ => exact ⟨rfl, rfl, rfl, rfl, rfl, rfl, rfl, hrest hworker nofun⟩
  | finishes hworker _ => exact ⟨rfl, rfl, rfl, rfl, rfl, rfl, rfl, fun _ => ⟨rfl, rfl⟩⟩

/-- How many steps the worker can take before it waits for a chunk that is not there. -/
def stepsLeft (d : Download) : Nat :=
  match d.worker with
  | .ended => 0
  | .waiting _ => 1 + 2 * d.slot.toList.length
  | .ready _ => 2 + 2 * d.slot.toList.length

theorem stepsLeft_le (d : Download) : d.stepsLeft ≤ 4 := by
  have hslot : d.slot.toList.length ≤ 1 := by
    cases d.slot with
    | none => exact Nat.zero_le _
    | some chunk => exact Nat.le_refl _
  rw [stepsLeft]
  split <;> omega

theorem stepsLeft_pos {d : Download} (h : d.worker ≠ .ended) : 0 < d.stepsLeft := by
  rw [stepsLeft]
  split
  · next hended => exact absurd hended h
  · omega
  · omega

/-- Every step of a worker is one of them. -/
theorem stepsLeft_wake {d : Download} {cancelled : Bool} (h : d.awake cancelled = true)
    (slotFirst : Bool) : (d.wake cancelled slotFirst).1.stepsLeft < d.stepsLeft := by
  cases hworker : d.worker with
  | ended =>
    rw [awake, hworker] at h
    cases h
  | ready index =>
    have hpos : 0 < d.stepsLeft := stepsLeft_pos (by rw [hworker]; exact nofun)
    simp only [wake, hworker, advance, abandon]
    split
    · exact hpos
    · split
      · simp only [stepsLeft, hworker]
        omega
      · exact hpos
  | waiting index =>
    have hpos : 0 < d.stepsLeft := stepsLeft_pos (by rw [hworker]; exact nofun)
    simp only [wake, hworker, abandon]
    split
    · exact hpos
    · split
      · next hslot =>
        simp only [stepsLeft, hworker, hslot, Option.toList_some, Option.toList_none,
          List.length_singleton, List.length_nil]
        omega
      · next hslot =>
        split
        · next hidle =>
          -- such a worker is not awake
          rw [Bool.and_eq_true, Bool.not_eq_true'] at hidle
          simp only [awake, hworker, hslot, hidle] at h
          cases h
        · exact hpos

/-- The pack that a finished download stands for, if its bytes are the announced ones. -/
structure Yields (unpack : PackId → Bytes → Except UnpackError Pack) (d : Download) (p : Pack) :
    Prop where
  hash : d.hash ≠ [] → Sha256.digest d.data = d.hash
  size : UInt64.ofNat d.data.length = d.size
  unpacked : ∃ q, unpack d.id d.data = .ok q ∧ p = { q with contentKey := d.contentKey }

theorem Yields.of_leads {unpack : PackId → Bytes → Except UnpackError Pack} {d d' : Download}
    {p : Pack} (h : d.Yields unpack p) (hleads : d.Leads d') (hended : d.worker = .ended) :
    d'.Yields unpack p := by
  have hdata : d'.data = d.data := by rw [data, data, (hleads.ended hended).2]
  refine ⟨?_, ?_, ?_⟩
  · rw [hdata, hleads.hash]
    exact h.hash
  · rw [hdata, hleads.size]
    exact h.size
  · rw [hdata, hleads.id, hleads.contentKey]
    exact h.unpacked

end Download

namespace Fetch

/-- The same with another state of one download. -/
def replace (f : Fetch) (k : Nat) (d : Download) : Fetch :=
  { f with downloads := f.downloads.set k d }

/-! ### The catalog and the count -/

theorem takeCatalog_eq (f : Fetch) (c : Catalog) :
    f.takeCatalog c =
      let selection := Selection.ofCatalog f.rules.filter c.packs
      ({ f with
          remaining := selection.wanted.length
          wanted := selection.wanted
          downloads := f.downloads.map Download.close
          ignored := selection.ignored
          consulted := f.consulted ++ selection.consulted
          stage := if selection.wanted = [] then .awaitingStack else .downloading },
        [.clientResponse
          (if selection.wanted = [] then .plain .allPacksDownloaded
            else ⟨Answer.sendPacks.code, selection.wanted.map (·.id.token)⟩)]) := by
  simp only [takeCatalog, Selection.remaining_ofCatalog]
  cases (Selection.ofCatalog f.rules.filter c.packs).wanted with
  | nil => rfl
  | cons w ws => rfl

theorem countOff_eq {f : Fetch} (h : f.remaining ≠ 0) :
    f.countOff =
      ({ f with
          remaining := f.remaining - 1
          stage := if f.remaining = 1 then .awaitingStack else f.stage },
        if f.remaining = 1 then [.clientResponse (.plain .allPacksDownloaded)] else []) := by
  rw [countOff]
  split
  · next hzero => exact absurd hzero h
  · next hone => rw [if_pos hone, if_pos hone, hone]
  · next n htwo =>
    have hne : f.remaining ≠ 1 := by omega
    have hpred : f.remaining - 1 = n + 1 := by omega
    rw [if_neg hne, if_neg hne, hpred]

/-! ### Announcements -/

/-- What an announcement may change. -/
inductive Announced (f : Fetch) (a : PackData) : Fetch × Option TransferError → Prop
  | refused (e : TransferError) : Announced f a (f, some e)
  | spoiled {w : Wanted} (hw : w ∈ f.wanted) (huuid : PackId.uuidOf? a.uuid = some w.id.uuid)
      (e : TransferError) :
      Announced f a ({ f with wanted := f.wanted.filter (·.id.uuid != w.id.uuid) }, some e)
  | started {w : Wanted} (hw : w ∈ f.wanted) (huuid : PackId.uuidOf? a.uuid = some w.id.uuid)
      (hchunk : a.chunkSize ≠ 0) (hsize : a.size ≠ 0) :
      Announced f a
        ({ f with
            wanted := f.wanted.filter (·.id.uuid != w.id.uuid)
            downloads := f.downloads ++ [Download.announced w.id w.contentKey a] }, none)

theorem announced_takeAnnouncement (f : Fetch) (a : PackData) :
    f.Announced a (f.takeAnnouncement a) := by
  rw [takeAnnouncement]
  split
  · exact .refused _
  · next uuid huuid =>
    split
    · exact .refused _
    · next w hfind =>
      have hw : w ∈ f.wanted := List.mem_of_find?_eq_some hfind
      have hw' : w.id.uuid = uuid := by simpa using List.find?_some hfind
      subst hw'
      split
      · exact .spoiled hw huuid _
      · next hchunk =>
        split
        · exact .spoiled hw huuid _
        · next hsize => exact .started hw huuid hchunk hsize

/-! ### Chunks -/

/-- What a chunk may change. -/
inductive Received (f : Fetch) (c : ChunkData) : Fetch × Option TransferError → Prop
  | refused (e : TransferError) : Received f c (f, some e)
  | closed {k : Nat} {d : Download} (hk : f.downloads[k]? = some d)
      (huuid : PackId.uuidOf? c.uuid = some d.id.uuid) (haccepting : d.accepting = true)
      (e : TransferError) : Received f c (f.replace k d.close, some e)
  | stored {k : Nat} {d : Download} (hk : f.downloads[k]? = some d)
      (huuid : PackId.uuidOf? c.uuid = some d.id.uuid) (haccepting : d.accepting = true)
      (hfault : d.fault? c = none) : Received f c (f.replace k (d.put c), none)

/-- Downloads of different packs have different places. -/
theorem place_unique {ds : List Download} (hnodup : (ds.map (·.id.uuid)).Nodup) {j k : Nat}
    {d e : Download} (hj : ds[j]? = some d) (hk : ds[k]? = some e)
    (huuid : d.id.uuid = e.id.uuid) : j = k := by
  have hlt : j < (ds.map (·.id.uuid)).length := by
    rw [List.length_map]
    exact (List.getElem?_eq_some_iff.mp hj).1
  refine (List.getElem?_inj hlt hnodup).mp ?_
  rw [List.getElem?_map, List.getElem?_map, hj, hk, Option.map_some, Option.map_some, huuid]

/-- Does no pack have two downloads that accept its chunks? -/
def Separate (ds : List Download) : Prop :=
  ∀ ⦃j k : Nat⦄ ⦃d e : Download⦄, ds[j]? = some d → ds[k]? = some e → d.accepting = true →
    e.accepting = true → d.id.uuid = e.id.uuid → j = k

theorem separate_of_nodup {ds : List Download} (hnodup : (ds.map (·.id.uuid)).Nodup) :
    Separate ds :=
  fun _ _ _ _ hj hk _ _ huuid => place_unique hnodup hj hk huuid

theorem takes_iff {uuid : Uuid} {d : Download} :
    takes uuid d = true ↔ d.accepting = true ∧ d.id.uuid = uuid := by
  rw [takes, Bool.and_eq_true, beq_iff_eq]

/-- Only one download takes the chunks of a pack. -/
theorem map_takes_eq_set {ds : List Download} (hseparate : Separate ds) {k : Nat}
    {d : Download} (hk : ds[k]? = some d) (haccepting : d.accepting = true) (d' : Download) :
    (ds.map fun e => if takes d.id.uuid e then d' else e) = ds.set k d' := by
  apply List.ext_getElem?
  intro j
  rw [List.getElem?_map]
  by_cases hjk : j = k
  · subst hjk
    have hj : j < ds.length := (List.getElem?_eq_some_iff.mp hk).1
    rw [List.getElem?_set_self hj, hk, Option.map_some, if_pos (takes_iff.mpr ⟨haccepting, rfl⟩)]
  · rw [List.getElem?_set_ne (Ne.symm hjk)]
    cases he : ds[j]? with
    | none => rfl
    | some e =>
      have hne : ¬ takes d.id.uuid e = true := by
        intro htakes
        obtain ⟨haccepting', huuid⟩ := takes_iff.mp htakes
        exact hjk (hseparate he hk haccepting' haccepting huuid)
      rw [Option.map_some, if_neg hne]

theorem received_takeChunk {f : Fetch} (hseparate : Separate f.downloads) (c : ChunkData) :
    f.Received c (f.takeChunk c) := by
  rw [takeChunk]
  split
  · exact .refused _
  · next uuid huuid =>
    split
    · exact .refused _
    · next d hfind =>
      have hmem : d ∈ f.downloads := List.mem_of_find?_eq_some hfind
      have htakes : takes uuid d = true := List.find?_some hfind
      obtain ⟨haccepting, rfl⟩ := takes_iff.mp htakes
      obtain ⟨k, hk⟩ := List.getElem?_of_mem hmem
      have hset := map_takes_eq_set hseparate hk haccepting
      cases hfault : d.fault? c with
      | none =>
        simp only [Download.accept, hfault, hset]
        exact .stored hk huuid haccepting hfault
      | some e =>
        simp only [Download.accept, hfault, hset]
        exact .closed hk huuid haccepting e

/-! ### Workers -/

/-- What a step of a worker may change. -/
inductive Worked (f : Fetch) : Fetch × List Packet → Prop
  | idle : Worked f (f, [])
  | quits {k : Nat} {d : Download} (hk : f.downloads[k]? = some d) (hworker : d.worker ≠ .ended) :
      Worked f (f.replace k { d with worker := .ended }, [])
  | asks {k : Nat} {d : Download} {i : UInt32} (hk : f.downloads[k]? = some d)
      (hworker : d.worker = .ready i) (hmore : i < d.chunkCount) :
      Worked f (f.replace k { d with worker := .waiting i }, [.chunkRequest ⟨d.reference, i⟩])
  | takes {k : Nat} {d : Download} {i : UInt32} {chunk : Bytes} (hk : f.downloads[k]? = some d)
      (hworker : d.worker = .waiting i) (hslot : d.slot = some chunk) :
      Worked f
        (f.replace k { d with slot := none, taken := chunk :: d.taken, worker := .ready (i + 1) },
          [])
  | delivers {k : Nat} {d : Download} {i : UInt32} {p : Pack} (hk : f.downloads[k]? = some d)
      (hworker : d.worker = .ready i) (hlast : ¬ i < d.chunkCount)
      (hyields : d.Yields f.rules.unpack p) :
      Worked f
        ({ f.replace k { d with worker := .ended } with
            resolved := f.resolved ++ [p] } : Fetch).countOff

/-- The bytes of a finished download become a pack or are thrown away. -/
theorem complete_eq_or (f : Fetch) (d : Download) :
    f.complete d d.data = (f, []) ∨ ∃ p, d.Yields f.rules.unpack p ∧
      f.complete d d.data = ({ f with resolved := f.resolved ++ [p] } : Fetch).countOff := by
  rw [complete]
  split
  · exact Or.inl rfl
  · next hhash =>
    split
    · exact Or.inl rfl
    · next hsize =>
      split
      · exact Or.inl rfl
      · next q hq =>
        refine Or.inr ⟨_, ⟨?_, ?_, q, hq, rfl⟩, rfl⟩
        · intro hne
          by_contra hdigest
          apply hhash
          rw [Bool.and_eq_true, Bool.not_eq_true', List.isEmpty_eq_false_iff, bne_iff_ne]
          exact ⟨hne, hdigest⟩
        · exact Decidable.of_not_not hsize

theorem worked_work (f : Fetch) (k : Nat) (slotFirst : Bool) : f.Worked (f.work k slotFirst) := by
  rw [work]
  split
  · exact .idle
  · next d hk =>
    have hwoken := d.woken_wake f.cancelled slotFirst
    revert hwoken
    generalize d.wake f.cancelled slotFirst = r
    intro hwoken
    cases hwoken with
    | idle =>
      have hsame : f.downloads.set k d = f.downloads := by
        obtain ⟨hlt, rfl⟩ := List.getElem?_eq_some_iff.mp hk
        exact List.set_getElem_self hlt
      simp only [hsame]
      exact .idle
    | quits hworker => exact .quits hk hworker
    | asks hworker hmore => exact .asks hk hworker hmore
    | takes hworker hslot => exact .takes hk hworker hslot
    | @finishes i hworker hlast =>
      have hne : d.worker ≠ .ended := by rw [hworker]; exact nofun
      show f.Worked ((f.replace k { d with worker := .ended }).complete d d.data)
      rcases complete_eq_or (f.replace k { d with worker := .ended }) d with
        hdrop | ⟨p, hyields, hdeliver⟩
      · rw [hdrop]
        exact .quits hk hne
      · rw [hdeliver]
        exact .delivers hk hworker hlast hyields

/-- How many steps the workers can take before all of them wait. -/
def stepsLeft (f : Fetch) : Nat := (f.downloads.map (·.stepsLeft)).sum

theorem stepsLeft_le (f : Fetch) : f.stepsLeft ≤ 4 * f.downloads.length := by
  rw [stepsLeft]
  induction f.downloads with
  | nil => exact Nat.le_refl _
  | cons d ds ih =>
    have hd := d.stepsLeft_le
    rw [List.map_cons, List.sum_cons, List.length_cons]
    omega

theorem sum_stepsLeft_set {ds : List Download} {k : Nat} {d d' : Download} (hk : ds[k]? = some d)
    (h : d'.stepsLeft < d.stepsLeft) :
    ((ds.set k d').map (·.stepsLeft)).sum < (ds.map (·.stepsLeft)).sum := by
  induction ds generalizing k with
  | nil => cases hk
  | cons e ds ih =>
    cases k with
    | zero =>
      cases hk
      exact Nat.add_lt_add_right h _
    | succ k => exact Nat.add_lt_add_left (ih hk) _

theorem downloads_complete (f : Fetch) (d : Download) (data : Bytes) :
    (f.complete d data).1.downloads = f.downloads := by
  rw [complete]
  split
  · rfl
  · split
    · rfl
    · split
      · rfl
      · rw [countOff]
        split <;> rfl

theorem downloads_work {f : Fetch} {k : Nat} {d : Download} (hk : f.downloads[k]? = some d)
    (slotFirst : Bool) :
    (f.work k slotFirst).1.downloads = f.downloads.set k (d.wake f.cancelled slotFirst).1 := by
  rw [work, hk]
  simp only
  split
  · rfl
  · rfl
  · exact downloads_complete _ _ _

theorem stepsLeft_work {f : Fetch} {k : Nat} {d : Download} (hk : f.downloads[k]? = some d)
    (h : d.awake f.cancelled = true) (slotFirst : Bool) :
    (f.work k slotFirst).1.stepsLeft < f.stepsLeft := by
  rw [stepsLeft, downloads_work hk]
  exact sum_stepsLeft_set hk (d.stepsLeft_wake h slotFirst)

end Fetch

end PackExchange
