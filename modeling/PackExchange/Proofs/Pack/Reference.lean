import PackExchange.Proofs.Pack.Token
import PackExchange.Transfer.Fetch
import PackExchange.Transfer.Offer

/-!
# What a reference names

Both sides of an exchange are given texts that name packs.  One reader of such a text wants the whole
identity and the other only the identifier, and each takes the text apart for itself.  They take it
apart at the same place, so what the server finds under a text is what the client means by it.

* `PackId.splitOnce?` — a text before and behind its first underscore, with
  `PackId.splitOnce?_eq_some_iff` and `PackId.splitOnce?_eq_none_iff`;
* `PackId.parse?_eq`, `PackId.uuidOf?_eq` — the two readers, each with what it makes of a text
  without an underscore;
* `PackId.Reads`, `PackId.parse?_eq_some_iff` — the texts that are read as an identity;
* `PackId.uuidOf?_eq_map` — the readers accept the same texts and agree on the identifier;
* `PackId.Resolves`, `PackId.Unresolved` — what the two sides look up under a text;
* `PackId.tokens_identify` — tokens and references identify packs.
-/

namespace PackExchange

namespace PackId

/-! ### Taking a text apart -/

/-- The characters before the first underscore and those behind it, if there is one. -/
def splitChars? : List Char → Option (List Char × List Char)
  | [] => none
  | c :: cs =>
    if c = '_' then some ([], cs) else (splitChars? cs).map fun parts => (c :: parts.1, parts.2)

/-- The text before the first underscore and the text behind it, if there is one. -/
def splitOnce? (s : String) : Option (String × String) :=
  (splitChars? s.toList).map fun parts => (String.ofList parts.1, String.ofList parts.2)

theorem splitChars?_eq_none_iff {cs : List Char} : splitChars? cs = none ↔ '_' ∉ cs := by
  induction cs with
  | nil => simp [splitChars?]
  | cons c cs ih =>
    by_cases hc : c = '_'
    · simp [splitChars?, hc]
    · rw [splitChars?, if_neg hc, Option.map_eq_none_iff, ih, List.mem_cons, not_or]
      exact (and_iff_right (Ne.symm hc)).symm

theorem splitChars?_append {front : List Char} (h : '_' ∉ front) (behind : List Char) :
    splitChars? (front ++ '_' :: behind) = some (front, behind) := by
  induction front with
  | nil => rfl
  | cons c front ih =>
    rw [List.mem_cons, not_or] at h
    rw [List.cons_append, splitChars?, if_neg (Ne.symm h.1), ih h.2]
    rfl

theorem eq_append_of_splitChars? {cs : List Char} {parts : List Char × List Char}
    (h : splitChars? cs = some parts) : cs = parts.1 ++ '_' :: parts.2 ∧ '_' ∉ parts.1 := by
  induction cs generalizing parts with
  | nil => cases h
  | cons c cs ih =>
    rw [splitChars?] at h
    split at h
    · next hc =>
      cases h
      exact ⟨congrArg (· :: cs) hc, List.not_mem_nil⟩
    · next hc =>
      obtain ⟨rest, hrest, rfl⟩ := Option.map_eq_some_iff.mp h
      obtain ⟨hcs, hno⟩ := ih hrest
      exact ⟨congrArg (c :: ·) hcs, List.not_mem_cons_of_ne_of_not_mem (Ne.symm hc) hno⟩

theorem splitOnce?_eq_none_iff {s : String} : splitOnce? s = none ↔ '_' ∉ s.toList := by
  rw [splitOnce?, Option.map_eq_none_iff, splitChars?_eq_none_iff]

/-- **A text is split at its first underscore.** -/
theorem splitOnce?_eq_some_iff {s head version : String} :
    splitOnce? s = some (head, version) ↔ s = head ++ "_" ++ version ∧ '_' ∉ head.toList := by
  have htext : s = head ++ "_" ++ version ↔ s.toList = head.toList ++ '_' :: version.toList := by
    rw [← String.toList_inj, String.toList_append, String.toList_append, List.append_assoc]
    rfl
  rw [htext, splitOnce?, Option.map_eq_some_iff]
  constructor
  · rintro ⟨parts, hsplit, hparts⟩
    obtain ⟨rfl, rfl⟩ := Prod.mk.inj hparts
    rw [String.toList_ofList, String.toList_ofList]
    exact eq_append_of_splitChars? hsplit
  · rintro ⟨hs, hno⟩
    refine ⟨_, hs ▸ splitChars?_append hno _, ?_⟩
    rw [String.ofList_toList, String.ofList_toList]

/-! ### The two readers -/

theorem cut_eq (cs : List Char) : cut cs = (splitChars? cs).getD (cs, []) := by
  cases hsplit : splitChars? cs with
  | none =>
    have hno := splitChars?_eq_none_iff.mp hsplit
    exact cut_of_no_underscore fun c hc heq => hno (heq ▸ hc)
  | some parts =>
    obtain ⟨hcs, hno⟩ := eq_append_of_splitChars? hsplit
    rw [hcs, cut_append fun c hc heq => hno (heq ▸ hc)]
    rfl

/-- The reader of identities takes a text without an underscore as one with an empty version. -/
theorem parse?_eq (s : String) :
    parse? s = (Uuid.parse? ((splitOnce? s).getD (s, "")).1.toList).map
      (PackId.mk · ((splitOnce? s).getD (s, "")).2) := by
  rw [parse?, cut_eq, splitOnce?]
  cases splitChars? s.toList with
  | none =>
    simp only [Option.getD_none, Option.map_none]
    cases Uuid.parse? s.toList <;> rfl
  | some parts =>
    simp only [Option.getD_some, Option.map_some, String.toList_ofList]
    cases Uuid.parse? parts.1 <;> rfl

/-- The reader of identifiers takes a text without an underscore as a whole. -/
theorem uuidOf?_eq (s : String) :
    uuidOf? s = Uuid.parse? (((splitOnce? s).map Prod.fst).getD s).toList := by
  rw [uuidOf?, cut_eq, splitOnce?]
  cases splitChars? s.toList with
  | none => rfl
  | some parts =>
    simp only [Option.getD_some, Option.map_some, String.toList_ofList]

/-- **The two readers accept the same texts, and agree on the identifier.** -/
theorem uuidOf?_eq_map (s : String) : uuidOf? s = (parse? s).map (·.uuid) := by
  have hhead : ((splitOnce? s).map Prod.fst).getD s = ((splitOnce? s).getD (s, "")).1 := by
    cases splitOnce? s <;> rfl
  rw [uuidOf?_eq, parse?_eq, hhead, Option.map_map]
  exact Option.map_id'.symm

/-- Is a text that of an identity?  It is an identifier in one of its forms, an underscore and the
version, and both may be missing if the version is empty. -/
def Reads (s : String) (id : PackId) : Prop :=
  ∃ head : String, '_' ∉ head.toList ∧ Uuid.parse? head.toList = some id.uuid ∧
    (s = head ++ "_" ++ id.version ∨ s = head ∧ id.version = "")

theorem parse?_eq_some_iff {s : String} {id : PackId} : parse? s = some id ↔ Reads s id := by
  rw [parse?_eq, Option.map_eq_some_iff]
  constructor
  · rintro ⟨u, hu, rfl⟩
    cases hsplit : splitOnce? s with
    | none =>
      rw [hsplit] at hu
      exact ⟨s, splitOnce?_eq_none_iff.mp hsplit, hu, Or.inr ⟨rfl, rfl⟩⟩
    | some parts =>
      rw [hsplit] at hu
      obtain ⟨hs, hno⟩ := splitOnce?_eq_some_iff.mp hsplit
      exact ⟨parts.1, hno, hu, Or.inl hs⟩
  · rintro ⟨head, hno, hu, htoken | ⟨rfl, hversion⟩⟩
    · rw [splitOnce?_eq_some_iff.mpr ⟨htoken, hno⟩]
      exact ⟨id.uuid, hu, rfl⟩
    · rw [splitOnce?_eq_none_iff.mpr hno]
      exact ⟨id.uuid, hu, by rw [Option.getD_none, ← hversion]⟩

theorem token_injective : Function.Injective token := by
  intro a b hab
  have hread : parse? a.token = parse? b.token := congrArg parse? hab
  rw [parse?_token, parse?_token] at hread
  exact Option.some.inj hread

end PackId

/-! ### What is looked up -/

/-- Passes a chunk to the download of a pack, whichever text names the pack. -/
def Fetch.takeChunkOf (f : Fetch) (uuid : Uuid) (c : ChunkData) : Fetch × Option TransferError :=
  match f.downloads.find? (takes uuid) with
  | none => (f, some (.unknownPack uuid))
  | some d =>
    ({ f with downloads := f.downloads.map fun e => if takes uuid e then (d.accept c).1 else e },
      (d.accept c).2)

theorem Fetch.takeChunk_of_none {f : Fetch} {c : ChunkData} (h : PackId.uuidOf? c.uuid = none) :
    f.takeChunk c = (f, some (.invalidPackId c.uuid)) := by
  rw [takeChunk, h]

theorem Fetch.takeChunk_of_some {f : Fetch} {c : ChunkData} {uuid : Uuid}
    (h : PackId.uuidOf? c.uuid = some uuid) : f.takeChunk c = f.takeChunkOf uuid c := by
  rw [takeChunk, h]
  rfl

namespace PackId

/-- Do both sides look a text up under this identifier?  A server that is asked for packs finds the
first on offer that has it, and a client passes a chunk to the download that has it. -/
structure Resolves (s : String) (uuid : Uuid) : Prop where
  server : ∃ version : String, ∀ o : Offer, o.find? s = o.packs.find? fun p =>
    p.id.uuid == uuid && (version.isEmpty || p.id.version == version)
  client : ∀ (f : Fetch) (c : ChunkData), c.uuid = s → f.takeChunk c = f.takeChunkOf uuid c

/-- Does neither side look a text up?  A server finds nothing, and a client refuses the text. -/
structure Unresolved (s : String) : Prop where
  server : ∀ o : Offer, o.find? s = none
  client : ∀ (f : Fetch) (c : ChunkData), c.uuid = s →
    f.takeChunk c = (f, some (.invalidPackId s))

theorem resolves_of_some {s : String} {uuid : Uuid} (h : uuidOf? s = some uuid) :
    Resolves s uuid := by
  refine ⟨?_, fun f c hc => Fetch.takeChunk_of_some (hc ▸ h)⟩
  rw [uuidOf?_eq_map, Option.map_eq_some_iff] at h
  obtain ⟨id, hid, rfl⟩ := h
  refine ⟨id.version, fun o => ?_⟩
  rw [Offer.find?, hid]
  rfl

theorem unresolved_of_none {s : String} (h : uuidOf? s = none) : Unresolved s := by
  refine ⟨fun o => ?_, fun f c hc => ?_⟩
  · rw [uuidOf?_eq_map, Option.map_eq_none_iff] at h
    rw [Offer.find?, h]
    rfl
  · subst hc
    exact Fetch.takeChunk_of_none h

/-- **Tokens identify packs.**  Whatever identifier and version a pack has, its identity is read back
from its token, and so is its identifier alone; packs with different identities have different
tokens.  Of any text at all, the whole identity is read exactly if the identifier is, and they agree
on the identifier.  So the server and the client look a text up under one and the same identifier, or
both refuse it. -/
theorem tokens_identify :
    (∀ id : PackId, parse? id.token = some id ∧ uuidOf? id.token = some id.uuid) ∧
      Function.Injective token ∧
      (∀ s : String, (∀ id, parse? s = some id ↔ Reads s id) ∧
        uuidOf? s = (parse? s).map (·.uuid)) ∧
      ∀ s : String, (∀ uuid, uuidOf? s = some uuid → Resolves s uuid) ∧
        (uuidOf? s = none → Unresolved s) :=
  ⟨fun id => ⟨parse?_token id, uuidOf?_token id⟩, token_injective,
    fun s => ⟨fun _ => parse?_eq_some_iff, uuidOf?_eq_map s⟩,
    fun _ => ⟨fun _ => resolves_of_some, unresolved_of_none⟩⟩

/-- An identifier in braces and capitals with a version that holds an underscore, and the same without
its last digit. -/
theorem tokens_identify_exampleBraces :
    parse? "{0000000A-0000-0000-0000-00000000000B}_1_0" =
        some ⟨⟨0x0000000a00000000, 11⟩, "1_0"⟩ ∧
      Resolves "{0000000A-0000-0000-0000-00000000000B}_1_0" ⟨0x0000000a00000000, 11⟩ ∧
      Unresolved "{0000000A-0000-0000-0000-00000000000}_1_0" :=
  ⟨by decide +kernel, (tokens_identify.2.2.2 _).1 _ (by decide +kernel),
    (tokens_identify.2.2.2 _).2 (by decide +kernel)⟩

end PackId

end PackExchange
