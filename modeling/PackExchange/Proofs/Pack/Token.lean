import Mathlib.Data.List.TakeWhile
import PackExchange.PackId

/-!
# Texts that name packs

An identifier is read back from its text, and the identity of a pack from its token, whatever the
version may hold.

* `Hex.Plain` — a character that separates nothing: neither a hyphen nor an underscore;
* `Uuid.parse?_text` — an identifier from its hyphenated form;
* `PackId.parse?_token`, `PackId.uuidOf?_token`, `PackId.uuidOf?_text` — what tokens and bare
  identifiers name.
-/

namespace PackExchange

/-! ### Digits -/

namespace Hex

/-- Is the character neither a hyphen nor an underscore? -/
def Plain (c : Char) : Prop := c ≠ '-' ∧ c ≠ '_'

theorem plain_digit {n : Nat} (h : n < 16) : Plain (digit n) := by
  have hall : ∀ k : Fin 16, digit k ≠ '-' ∧ digit k ≠ '_' := by decide
  exact hall ⟨n, h⟩

theorem plain_of_mem_digits {width n : Nat} {c : Char} (h : c ∈ digits width n) : Plain c := by
  induction width generalizing n with
  | zero => cases h
  | succ width ih =>
    rw [digits, List.mem_append, List.mem_singleton] at h
    rcases h with h | rfl
    · exact ih h
    · exact plain_digit (Nat.mod_lt n (by decide))

end Hex

/-! ### Identifiers -/

namespace Uuid

theorem length_digits (u : Uuid) : u.digits.length = 32 := by
  rw [digits, List.length_append, Hex.length_digits, Hex.length_digits]

theorem plain_of_mem_digits {u : Uuid} {c : Char} (h : c ∈ u.digits) : Hex.Plain c :=
  (List.mem_append.mp h).elim Hex.plain_of_mem_digits Hex.plain_of_mem_digits

theorem ofDigits?_digits (u : Uuid) : ofDigits? u.digits = some u := by
  have hhigh : u.digits.take 16 = Hex.digits 16 u.high.toNat := by
    rw [digits, List.take_left' (Hex.length_digits 16 _)]
  have hlow : u.digits.drop 16 = Hex.digits 16 u.low.toNat := by
    rw [digits, List.drop_left' (Hex.length_digits 16 _)]
  have hspan : ∀ v : UInt64, v.toNat % Hex.span 16 = v.toNat :=
    fun v => Nat.mod_eq_of_lt v.toNat_lt
  rw [ofDigits?, if_pos u.length_digits, hhigh, hlow, Hex.number?_digits, Hex.number?_digits,
    hspan, hspan]
  show some (Uuid.mk (UInt64.ofNat u.high.toNat) (UInt64.ofNat u.low.toNat)) = some u
  rw [UInt64.ofNat_toNat, UInt64.ofNat_toNat]

/-- Without its hyphens the hyphenated form is the digits again. -/
theorem filter_hyphenate {ds : List Char} (h : ∀ c ∈ ds, Hex.Plain c) :
    (hyphenate ds).filter (· ≠ '-') = ds := by
  have hkeep : ∀ cs : List Char, (∀ c ∈ cs, c ∈ ds) → cs.filter (· ≠ '-') = cs := by
    intro cs hcs
    rw [List.filter_eq_self]
    intro c hc
    exact decide_eq_true (h c (hcs c hc)).1
  have hdrop : ∀ cs : List Char, ('-' :: cs).filter (· ≠ '-') = cs.filter (· ≠ '-') :=
    fun cs => List.filter_cons_of_neg (by decide)
  simp only [hyphenate, List.filter_append, List.cons_append, hdrop, List.append_assoc]
  rw [hkeep _ fun c hc => List.mem_of_mem_take hc,
    hkeep _ fun c hc => List.mem_of_mem_drop (List.mem_of_mem_take hc),
    hkeep _ fun c hc => List.mem_of_mem_drop (List.mem_of_mem_take hc),
    hkeep _ fun c hc => List.mem_of_mem_drop (List.mem_of_mem_take hc),
    hkeep _ fun c hc => List.mem_of_mem_drop hc]
  have hfour : ∀ n : Nat, (ds.drop n).take 4 ++ ds.drop (n + 4) = ds.drop n := by
    intro n
    rw [← List.drop_drop, List.take_append_drop]
  rw [hfour 16, hfour 12, hfour 8, List.take_append_drop]

theorem length_hyphenate {ds : List Char} (h : ds.length = 32) : (hyphenate ds).length = 36 := by
  simp [hyphenate, h]

/-- **An identifier is read back from its text.** -/
theorem parse?_hyphenate (u : Uuid) : parse? (hyphenate u.digits) = some u := by
  have hplain : ∀ c ∈ u.digits, Hex.Plain c := fun _ hc => plain_of_mem_digits hc
  have hlength := length_hyphenate u.length_digits
  simp only [parse?, hlength, ofHyphenated?, filter_hyphenate hplain, if_true, ofDigits?_digits]

/-- The hyphenated form holds the digits and hyphens. -/
theorem eq_or_mem_of_mem_hyphenate {ds : List Char} {c : Char} (h : c ∈ hyphenate ds) :
    c = '-' ∨ c ∈ ds := by
  simp only [hyphenate, List.append_assoc, List.cons_append, List.mem_append, List.mem_cons] at h
  rcases h with h | h | h | h | h | h | h | h | h
  · exact Or.inr (List.mem_of_mem_take h)
  · exact Or.inl h
  · exact Or.inr (List.mem_of_mem_drop (List.mem_of_mem_take h))
  · exact Or.inl h
  · exact Or.inr (List.mem_of_mem_drop (List.mem_of_mem_take h))
  · exact Or.inl h
  · exact Or.inr (List.mem_of_mem_drop (List.mem_of_mem_take h))
  · exact Or.inl h
  · exact Or.inr (List.mem_of_mem_drop h)

theorem not_underscore_of_mem_hyphenate {u : Uuid} {c : Char} (h : c ∈ hyphenate u.digits) :
    c ≠ '_' := by
  rcases eq_or_mem_of_mem_hyphenate h with rfl | hdigit
  · decide
  · exact (plain_of_mem_digits hdigit).2

end Uuid

/-! ### Tokens -/

namespace PackId

/-- Text without underscores before the first underscore is cut off whole. -/
theorem cut_append {front : List Char} (h : ∀ c ∈ front, c ≠ '_') (version : List Char) :
    cut (front ++ '_' :: version) = (front, version) := by
  have hfront : ∀ c ∈ front, decide (c ≠ '_') = true := fun c hc => decide_eq_true (h c hc)
  rw [cut, List.takeWhile_append_of_pos hfront, List.dropWhile_append_of_pos hfront,
    List.takeWhile_cons_of_neg (by decide), List.dropWhile_cons_of_neg (by decide),
    List.append_nil]
  rfl

theorem cut_of_no_underscore {cs : List Char} (h : ∀ c ∈ cs, c ≠ '_') : cut cs = (cs, []) := by
  have hall : ∀ c ∈ cs, decide (c ≠ '_') = true := fun c hc => decide_eq_true (h c hc)
  rw [cut, List.takeWhile_eq_self_iff.mpr hall, List.dropWhile_eq_nil_iff.mpr hall]
  rfl

theorem cut_token (id : PackId) :
    cut id.token.toList = (Uuid.hyphenate id.uuid.digits, id.version.toList) := by
  have htoken : id.token.toList =
      Uuid.hyphenate id.uuid.digits ++ '_' :: id.version.toList := by
    rw [token, String.toList_append, String.toList_append, Uuid.text, String.toList_ofList,
      List.append_assoc]
    rfl
  rw [htoken, cut_append fun _ hc => Uuid.not_underscore_of_mem_hyphenate hc]

/-- **A token names the pack it was made of.** -/
theorem parse?_token (id : PackId) : parse? id.token = some id := by
  simp only [parse?, cut_token, Uuid.parse?_hyphenate, Option.bind_eq_bind, Option.bind_some]
  rw [String.ofList_toList]
  rfl

theorem uuidOf?_token (id : PackId) : uuidOf? id.token = some id.uuid := by
  rw [uuidOf?, cut_token]
  exact Uuid.parse?_hyphenate id.uuid

theorem uuidOf?_text (u : Uuid) : uuidOf? u.text = some u := by
  rw [uuidOf?, Uuid.text, String.toList_ofList,
    cut_of_no_underscore fun _ hc => Uuid.not_underscore_of_mem_hyphenate hc]
  exact Uuid.parse?_hyphenate u

end PackId

end PackExchange
