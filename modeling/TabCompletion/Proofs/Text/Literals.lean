import TabCompletion.Text.Basic

/-!
Texts of literals. The characters of a literal are decoded from its bytes, and for a literal without
signs outside of ASCII the bytes are all there is to it: a long computation over many literals is done
on their bytes.
-/

namespace TabCompletion.Text

/-- The units of a string, read off its bytes where these are all ASCII. -/
def ofBytes (s : String) : Text :=
  let bytes := s.toByteArray.data.toList
  if bytes.all fun b => Nat.blt b.toNat 0x80 then bytes.map fun b => UInt16.ofNat b.toNat
  else ofString s

theorem bytes_eq (s : String) :
    s.toByteArray.data.toList = s.toList.flatMap String.utf8EncodeChar := by
  obtain ⟨characters, rfl⟩ : ∃ characters, s = String.ofList characters :=
    ⟨s.toList, String.ofList_toList.symm⟩
  rw [String.toByteArray_ofList, String.toList_ofList, List.utf8Encode, List.toList_data_toByteArray]

/-- A character whose bytes are all ASCII has one byte, which is its code point. -/
theorem utf8EncodeChar_ascii {c : Char} (ascii : ∀ b ∈ String.utf8EncodeChar c, b.toNat < 0x80) :
    c.toNat < 0x80 ∧ String.utf8EncodeChar c = [UInt8.ofNat c.toNat] := by
  rw [String.utf8EncodeChar] at ascii ⊢
  split at ascii
  · rename_i below
    exact ⟨Nat.lt_succ_of_le below, if_pos below⟩
  · -- The first byte of a longer sequence is not ASCII.
    exfalso
    split at ascii
    · have first := ascii _ List.mem_cons_self
      rw [UInt8.toNat_ofNat'] at first
      omega
    · split at ascii
      · have first := ascii _ List.mem_cons_self
        rw [UInt8.toNat_ofNat'] at first
        omega
      · have first := ascii _ List.mem_cons_self
        rw [UInt8.toNat_ofNat'] at first
        omega

theorem units_ascii {characters : List Char}
    (ascii : ∀ b ∈ characters.flatMap String.utf8EncodeChar, b.toNat < 0x80) :
    characters.flatMap (fun c => unitsOfPoint c.toNat) =
      (characters.flatMap String.utf8EncodeChar).map fun b => UInt16.ofNat b.toNat := by
  induction characters with
  | nil => rfl
  | cons c rest ih =>
      rw [List.flatMap_cons] at ascii
      obtain ⟨below, single⟩ := utf8EncodeChar_ascii fun b listed =>
        ascii b (List.mem_append_left _ listed)
      have whole : c.toNat < 0x10000 := by omega
      have unit : (UInt8.ofNat c.toNat).toNat = c.toNat := by
        rw [UInt8.toNat_ofNat']
        omega
      rw [List.flatMap_cons, List.flatMap_cons, List.map_append, unitsOfPoint, if_pos whole, single,
        List.map_singleton, unit, ih fun b listed => ascii b (List.mem_append_right _ listed)]

theorem ofString_eq : ofString = ofBytes := by
  funext s
  rw [ofBytes, bytes_eq]
  split
  · rename_i checked
    exact units_ascii fun b listed => Nat.blt_eq.mp (List.all_eq_true.mp checked b listed)
  · rfl

end TabCompletion.Text
