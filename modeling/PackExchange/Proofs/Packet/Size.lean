import Mathlib.Data.String.Basic
import PackExchange.Proofs.Pack.Token
import PackExchange.Proofs.Wire.Room
import PackExchange.Packet.Envelope
import PackExchange.Transfer.Offer

/-!
# How long packets are

A packet is as long as the texts and the bytes it holds, and a little longer.

* `Uuid.size_text`, `PackId.size_token` — how long the texts are that name a pack;
* `Packet.length_toBytes_le` — no packet is longer than the room for it;
* `Pack.texts`, `Offer.listing` — how much a pack says about itself, and all packs on offer;
* `Offer.room_catalog_le`, `room_stack_le`, `room_announcement_le`, `ChunkData.room_eq` — the room
  for what a server sends, in either revision.
-/

namespace PackExchange

/-- A text of characters of one byte each has as many bytes as characters. -/
theorem size_ofList {cs : List Char} (h : ∀ c ∈ cs, c.utf8Size = 1) :
    (String.ofList cs).utf8ByteSize = cs.length := by
  rw [String.utf8ByteSize_ofList]
  induction cs with
  | nil => rfl
  | cons c cs ih =>
    rw [String.utf8Len_cons, ih fun d hd => h d (List.mem_cons_of_mem c hd),
      h c List.mem_cons_self, List.length_cons]

namespace Hex

theorem size_digit {n : Nat} (h : n < 16) : (digit n).utf8Size = 1 := by
  have hall : ∀ k : Fin 16, (digit k).utf8Size = 1 := by decide
  exact hall ⟨n, h⟩

theorem size_of_mem_digits {width n : Nat} {c : Char} (h : c ∈ digits width n) :
    c.utf8Size = 1 := by
  induction width generalizing n with
  | zero => cases h
  | succ width ih =>
    rw [digits, List.mem_append, List.mem_singleton] at h
    rcases h with h | rfl
    · exact ih h
    · exact size_digit (Nat.mod_lt n (by decide))

end Hex

/-- **An identifier is a text of 36 bytes.** -/
theorem Uuid.size_text (u : Uuid) : u.text.utf8ByteSize = 36 := by
  rw [text, size_ofList, length_hyphenate u.length_digits]
  intro c hc
  rcases eq_or_mem_of_mem_hyphenate hc with rfl | hc
  · decide
  · exact (List.mem_append.mp hc).elim Hex.size_of_mem_digits Hex.size_of_mem_digits

theorem PackId.size_token (id : PackId) :
    id.token.utf8ByteSize = 37 + id.version.utf8ByteSize := by
  rw [token, String.utf8ByteSize_append, String.utf8ByteSize_append, Uuid.size_text]
  rfl

/-! ### Packets -/

theorem Packet.length_toBytes_le (shield : Int32) (kind : Packet.Kind) (body : kind.Body) :
    ((Packet.known kind body).toBytes shield).length ≤ 5 + (kind.layout shield).room body := by
  rw [toBytes, encode, List.length_append]
  exact Nat.add_le_add (VarInt.length_write32_le_five _)
    ((kind.layout shield).length_write_le_room body)

theorem ChunkData.room_eq (c : ChunkData) :
    ChunkData.layout.room c = 22 + c.uuid.utf8ByteSize + c.data.length := by
  simp only [ChunkData.layout, Layout.room, Scalar.room]
  omega

/-- A catalog is no shorter than the address of a pack in it. -/
theorem Catalog.size_downloadUrl_le {c : Catalog} {e : CatalogEntry} (he : e ∈ c.packs) :
    e.downloadUrl.utf8ByteSize ≤ (Catalog.layout.write c).length := by
  have hentry : e.downloadUrl.utf8ByteSize ≤ (CatalogEntry.layout.write e).length := by
    simp only [CatalogEntry.layout, Layout.write, Scalar.write, Scalar.writeBlob,
      List.length_append, Bytes.length_ofText]
    omega
  have hentries : (CatalogEntry.layout.write e).length ≤
      (c.packs.flatMap fun e => CatalogEntry.layout.write e).length := by
    rw [List.length_flatMap]
    exact List.single_le_sum (fun n _ => Nat.zero_le n) _ (List.mem_map_of_mem he)
  simp only [Catalog.layout, Layout.write, List.length_append]
  omega

/-- How long the texts are that a server sends of a pack. -/
def Pack.texts (p : Pack) : Nat :=
  p.id.version.utf8ByteSize + p.contentKey.utf8ByteSize + p.downloadUrl.utf8ByteSize

namespace Offer

/-- How much the packs on offer say about themselves. -/
def listing (o : Offer) : Nat := (o.packs.map fun p => p.texts + 88).sum

/-- A pack on offer says no more than all of them. -/
theorem texts_le_listing {o : Offer} {p : Pack} (hp : p ∈ o.packs) : p.texts + 88 ≤ o.listing :=
  List.single_le_sum (fun n _ => Nat.zero_le n) _ (List.mem_map_of_mem hp)

theorem room_entry_le (p : Pack) : CatalogEntry.layout.room (entry p) ≤ p.texts + 88 := by
  have hkey : (entry p).contentKey.utf8ByteSize ≤ p.contentKey.utf8ByteSize := by
    rw [entry]
    split
    · exact Nat.le_refl _
    · exact Nat.zero_le _
  have hidentity : (entry p).contentIdentity.utf8ByteSize ≤ 36 := by
    rw [entry]
    split
    · exact Nat.le_of_eq (Uuid.size_text _)
    · exact Nat.zero_le _
  have hsubPack : (entry p).subPackName.utf8ByteSize = 0 := rfl
  have hversion : (entry p).version = p.id.version := rfl
  have hurl : (entry p).downloadUrl = p.downloadUrl := rfl
  simp only [CatalogEntry.layout, Layout.room, Scalar.room, hsubPack, hversion, hurl, Pack.texts]
  omega

theorem sum_room_entries_le (o : Offer) :
    ((o.packs.map entry).map CatalogEntry.layout.room).sum ≤ o.listing := by
  rw [List.map_map, listing]
  exact List.sum_le_sum fun p _ => room_entry_le p

theorem room_catalog_le (o : Offer) (required : Bool) :
    Catalog.layout.room (o.catalog required) ≤ 29 + o.listing := by
  have hentries := o.sum_room_entries_le
  have htemplate : (o.catalog required).worldTemplateVersion.utf8ByteSize = 0 := rfl
  simp only [Catalog.layout, Layout.room, Scalar.room, htemplate]
  simp only [catalog] at hentries ⊢
  omega

/-- The older revision has the same entries. -/
theorem room_legacyCatalog_le (o : Offer) (required : Bool) :
    LegacyCatalog.layout.room (Revision.catalogOfLatest (o.catalog required)) ≤ 14 + o.listing := by
  have hentries := o.sum_room_entries_le
  have haddons : (o.packs.map entry).filter (·.addon) = [] := by
    rw [List.filter_eq_nil_iff]
    intro e he
    obtain ⟨p, -, rfl⟩ := List.mem_map.mp he
    exact Bool.false_ne_true
  have hothers : (o.packs.map entry).filter (!·.addon) = o.packs.map entry := by
    rw [List.filter_eq_self]
    intro e he
    obtain ⟨p, -, rfl⟩ := List.mem_map.mp he
    rfl
  simp only [LegacyCatalog.layout, Layout.room, Scalar.room, Revision.catalogOfLatest, catalog,
    haddons, hothers, List.map_nil, List.sum_nil] at hentries ⊢
  omega

theorem room_stackEntry (id : PackId) :
    StackEntry.layout.room (stackEntry id) = 51 + id.version.utf8ByteSize := by
  have hsubPack : (stackEntry id).subPackName.utf8ByteSize = 0 := rfl
  have huuid : (stackEntry id).uuid.utf8ByteSize = 36 := Uuid.size_text _
  have hversion : (stackEntry id).version = id.version := rfl
  simp only [StackEntry.layout, Layout.room, Scalar.room, hsubPack, huuid, hversion]
  omega

/-- The load order has the packs on offer, and one that every client has. -/
theorem sum_room_stackEntries_le (o : Offer) :
    (o.stack.packs.map StackEntry.layout.room).sum ≤ 56 + o.listing := by
  have hpacks : (o.packs.map (StackEntry.layout.room ∘ stackEntry ∘ (·.id))).sum ≤ o.listing := by
    refine List.sum_le_sum fun p _ => ?_
    show StackEntry.layout.room (stackEntry p.id) ≤ _
    rw [room_stackEntry, Pack.texts]
    omega
  have hexempted : (PackId.exempted.map (StackEntry.layout.room ∘ stackEntry)).sum = 56 := by
    show StackEntry.layout.room (stackEntry _) + 0 = 56
    rw [room_stackEntry]
    rfl
  simp only [stack, List.map_append, List.map_map, List.sum_append]
  omega

theorem room_stack_le (o : Offer) : PackStack.layout.room o.stack ≤ 81 + o.listing := by
  have hentries := o.sum_room_stackEntries_le
  have hversion : o.stack.gameVersion.utf8ByteSize = 7 := rfl
  have hexperiments : o.stack.experiments = [] := rfl
  simp only [PackStack.layout, Layout.room, Scalar.room, hversion, hexperiments, List.map_nil,
    List.sum_nil]
  omega

theorem room_legacyStack_le (o : Offer) :
    LegacyPackStack.layout.room (Revision.stackOfLatest o.stack) ≤ 85 + o.listing := by
  have hentries := o.sum_room_stackEntries_le
  have hversion : o.stack.gameVersion.utf8ByteSize = 7 := rfl
  have hexperiments : o.stack.experiments = [] := rfl
  simp only [LegacyPackStack.layout, Layout.room, Scalar.room, Revision.stackOfLatest, hversion,
    hexperiments, List.map_nil, List.sum_nil]
  omega

theorem room_announcement_le {o : Offer} {p : Pack} (hp : p ∈ o.packs) :
    PackData.layout.room (o.announcement p) ≤ o.listing + p.checksum.length := by
  have htexts := texts_le_listing hp
  rw [Pack.texts] at htexts
  simp only [PackData.layout, Layout.room, Scalar.room, announcement, PackId.size_token]
  omega

end Offer

end PackExchange
