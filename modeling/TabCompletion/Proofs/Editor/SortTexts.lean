import Mathlib.Algebra.Ring.Nat
import Mathlib.Data.List.Forall2
import TabCompletion.Editor.Item
import TabCompletion.Proofs.Sorting

/-!
The sort texts of an editor's items. Decimals of one width compare as texts as their numbers do, and
the width of the count is enough for every place, so the editor sorts the items into the order in which
the engine listed the results.
-/

namespace TabCompletion

namespace Text

/-- The last decimal digits of a number, at so many places. -/
def lastDigits : Nat → Nat → Text
  | 0, _ => []
  | places + 1, n => lastDigits places (n / 10) ++ [UInt16.ofNat (0x30 + n % 10)]

theorem length_lastDigits (places n : Nat) : (lastDigits places n).length = places := by
  induction places generalizing n with
  | zero => rfl
  | succ places ih => rw [lastDigits, List.length_append, ih, List.length_singleton]

theorem lastDigits_zero (places : Nat) :
    lastDigits places 0 = List.replicate places ('0' : CodeUnit) := by
  induction places with
  | zero => rfl
  | succ places ih =>
      rw [lastDigits, Nat.zero_div, ih, List.replicate_succ']
      rfl

/-! Padded decimals. -/

theorem ofString_append (s t : List Char) :
    ofString (String.ofList (s ++ t)) = ofString (String.ofList s) ++ ofString (String.ofList t) := by
  simp [ofString]

theorem ofString_digit {digit : Nat} (small : digit < 10) :
    ofString (String.ofList [digit.digitChar]) = [UInt16.ofNat (0x30 + digit)] := by
  revert digit
  decide +kernel

theorem ofNat_small {n : Nat} (small : n < 10) : ofNat n = [UInt16.ofNat (0x30 + n % 10)] := by
  rw [ofNat, Nat.toDigits_of_lt_base small, ofString_digit small, Nat.mod_eq_of_lt small]

theorem ofNat_large {n : Nat} (large : 10 ≤ n) :
    ofNat n = ofNat (n / 10) ++ [UInt16.ofNat (0x30 + n % 10)] := by
  rw [ofNat, Nat.toDigits_of_base_le (by decide) large, ofString_append,
    ofString_digit (Nat.mod_lt n (by decide))]
  rfl

theorem ofNat_length_pos (n : Nat) : 0 < (ofNat n).length := by
  rcases Nat.lt_or_ge n 10 with small | large
  · rw [ofNat_small small]
    exact Nat.one_pos
  · rw [ofNat_large large, List.length_append]
    exact Nat.lt_add_left _ Nat.one_pos

/-- A number has as many digits as it takes to write it. -/
theorem lt_pow_length (n : Nat) : n < 10 ^ (ofNat n).length := by
  induction n using Nat.strongRecOn with
  | ind n ih =>
      rcases Nat.lt_or_ge n 10 with small | large
      · rw [ofNat_small small]
        simpa using small
      · have front := ih (n / 10) (by omega)
        rw [ofNat_large large, List.length_append, List.length_singleton, Nat.pow_succ]
        omega

/-- A number that fits is padded to its last digits. -/
theorem padLeft_ofNat {places n : Nat} (some : 0 < places) (fits : n < 10 ^ places) :
    padLeft (ofNat n) places '0' = lastDigits places n := by
  induction places generalizing n with
  | zero => cases some
  | succ places ih =>
      rw [Nat.pow_succ] at fits
      rcases Nat.lt_or_ge n 10 with small | large
      · rw [ofNat_small small, lastDigits, Nat.div_eq_of_lt small, lastDigits_zero, padLeft,
          List.length_singleton, Nat.add_sub_cancel]
      · have front : n / 10 < 10 ^ places := by omega
        have more : 0 < places := by
          refine Nat.pos_of_ne_zero fun none => ?_
          rw [none] at front
          omega
        have padded := ih more front
        rw [ofNat_large large, lastDigits, ← padded, padLeft, padLeft, List.length_append,
          List.length_singleton, List.append_assoc, Nat.add_sub_add_right]

/-! Order. -/

theorem compare_append {s t : Text} (sameLength : s.length = t.length) (u v : Text) :
    compare (s ++ u) (t ++ v) = (compare s t).then (compare u v) := by
  induction s generalizing t with
  | nil =>
      rw [List.eq_nil_of_length_eq_zero sameLength.symm]
      rfl
  | cons a s ih =>
      cases t with
      | nil => cases sameLength
      | cons b t =>
          rw [List.cons_append, List.cons_append, compare, compare]
          split
          · rfl
          · split
            · rfl
            · exact ih (Nat.succ.inj sameLength)

theorem compare_digit {m n : Nat} (smallM : m < 10) (smallN : n < 10) :
    compare [UInt16.ofNat (0x30 + m)] [UInt16.ofNat (0x30 + n)] = Ord.compare m n := by
  have all : ∀ m < 10, ∀ n < 10,
      compare [UInt16.ofNat (0x30 + m)] [UInt16.ofNat (0x30 + n)] = Ord.compare m n := by
    decide +kernel
  exact all m smallM n smallN

theorem compare_div_mod (m n : Nat) :
    (Ord.compare (m / 10) (n / 10)).then (Ord.compare (m % 10) (n % 10)) = Ord.compare m n := by
  rcases Nat.lt_trichotomy (m / 10) (n / 10) with less | same | more
  · rw [Nat.compare_eq_lt.mpr less, Nat.compare_eq_lt.mpr (show m < n by omega)]
    rfl
  · rw [Nat.compare_eq_eq.mpr same, Ordering.eq_then]
    rcases Nat.lt_trichotomy (m % 10) (n % 10) with less | sameDigit | more
    · rw [Nat.compare_eq_lt.mpr less, Nat.compare_eq_lt.mpr (by omega)]
    · rw [Nat.compare_eq_eq.mpr sameDigit, Nat.compare_eq_eq.mpr (by omega)]
    · rw [Nat.compare_eq_gt.mpr more, Nat.compare_eq_gt.mpr (by omega)]
  · rw [Nat.compare_eq_gt.mpr more, Nat.compare_eq_gt.mpr (show n < m by omega)]
    rfl

/-- Decimals of one width are ordered as texts as their numbers are. -/
theorem compare_lastDigits {places m n : Nat} (fitsM : m < 10 ^ places) (fitsN : n < 10 ^ places) :
    compare (lastDigits places m) (lastDigits places n) = Ord.compare m n := by
  induction places generalizing m n with
  | zero =>
      obtain rfl : m = 0 := by simpa using fitsM
      obtain rfl : n = 0 := by simpa using fitsN
      rfl
  | succ places ih =>
      rw [Nat.pow_succ] at fitsM fitsN
      have lengths : (lastDigits places (m / 10)).length = (lastDigits places (n / 10)).length := by
        rw [length_lastDigits, length_lastDigits]
      rw [lastDigits, lastDigits, compare_append lengths, ih (by omega) (by omega),
        compare_digit (Nat.mod_lt m (by decide)) (Nat.mod_lt n (by decide)), compare_div_mod]

end Text

namespace Editor

/-- The item of a result, whatever its place in the list is. -/
structure Shows (r : Result) (item : Item) : Prop where
  label : item.label = r.listItem
  kind : item.kind = .ofResult r.kind
  detail : item.detail = r.toolTip
  filterText : item.filterText = r.text
  newText : item.newText = r.text

/-- The width of the count is enough for every place below it. -/
theorem sortText_eq {count index : Nat} (inside : index < count) :
    sortText count index = Text.lastDigits (Text.ofNat count).length index :=
  Text.padLeft_ofNat (Text.ofNat_length_pos count)
    (Nat.lt_trans inside (Text.lt_pow_length count))

theorem sortText_length {count index : Nat} (inside : index < count) :
    (sortText count index).length = (Text.ofNat count).length := by
  rw [sortText_eq inside, Text.length_lastDigits]

theorem sortText_ordered {count index later : Nat} (before : index < later) (inside : later < count) :
    Text.compare (sortText count index) (sortText count later) = .lt := by
  have fits := Text.lt_pow_length count
  rw [sortText_eq (Nat.lt_trans before inside), sortText_eq inside,
    Text.compare_lastDigits (by omega) (by omega), Nat.compare_eq_lt.mpr before]

/-- There is one item for each result, in the same order; the sort texts have one length and stand in
strictly ascending order, unit by unit; and all items replace the range of the completion. -/
theorem sort_texts_keep_order (completion : Engine.InputCompletion) (d : Document) :
    List.Forall₂ Shows completion.results (items completion d) ∧
    (∀ a ∈ items completion d, ∀ b ∈ items completion d,
      a.sortText.length = b.sortText.length) ∧
    ((items completion d).Pairwise fun a b => Text.compare a.sortText b.sortText = .lt) ∧
    ∀ item ∈ items completion d, item.range = replacedRange completion d := by
  have count : (items completion d).length = completion.results.length := by
    rw [items, List.length_map, List.length_zipIdx]
  have placed : ∀ item ∈ items completion d, ∃ index, index < completion.results.length ∧
      item.sortText = sortText completion.results.length index ∧
      item.range = replacedRange completion d := by
    intro item listed
    obtain ⟨⟨r, index⟩, isResult, rfl⟩ := List.mem_map.mp listed
    exact ⟨index, List.snd_lt_of_mem_zipIdx isResult, rfl, rfl⟩
  refine ⟨?_, ?_, ?_, ?_⟩
  · refine List.forall₂_iff_get.mpr ⟨count.symm, fun index inResults inItems => ?_⟩
    constructor <;> simp [items]
  · intro a isItem b isOther
    obtain ⟨index, inside, isText, -⟩ := placed a isItem
    obtain ⟨other, insideToo, isOtherText, -⟩ := placed b isOther
    rw [isText, isOtherText, sortText_length inside, sortText_length insideToo]
  · refine List.pairwise_iff_getElem.mpr fun index later _ inItems before => ?_
    have ordered := sortText_ordered before (count ▸ inItems)
    simpa [items] using ordered
  · intro item listed
    obtain ⟨index, -, -, isRange⟩ := placed item listed
    exact isRange

end Editor

end TabCompletion
