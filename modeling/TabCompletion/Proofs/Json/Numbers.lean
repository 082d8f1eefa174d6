import TabCompletion.Json.Reader
import TabCompletion.Proofs.Assoc
import TabCompletion.Proofs.Number.Rounding

/-!
The numbers of JSON values that are read. Each is rounded when it is read, so a finite one has at most 53
bits and an exponent in range, wherever it stands in the value.
-/

namespace TabCompletion

namespace Number

theorem ofDecimal_held {negative : Bool} {digits : Nat} {place : Int}
    (isFinite : (ofDecimal negative digits place).isFinite = true) :
    Held (ofDecimal negative digits place) := by
  have zero : Held (.finite negative 0 leastExponent) := ⟨by norm_num, le_rfl, by decide⟩
  revert isFinite
  rw [ofDecimal]
  split_ifs
  · exact fun _ => zero
  · exact fun impossible => nomatch impossible
  · exact fun _ => zero
  · exact fun finite => ((roundsTo_round _ _ Nat.one_pos _).normal finite).held
  · exact fun finite => ((roundsTo_round _ _ (Nat.pow_pos (by decide)) _).normal finite).held

theorem decimal?_eq {negative : Bool} {t : Text} {x : Number} (isRead : decimal? negative t = some x) :
    ∃ digits place, x = ofDecimal negative digits place := by
  rw [decimal?] at isRead
  -- No digits; no power; a negative and a positive power; other text behind the sign, and the digits.
  repeat' split at isRead
  · cases isRead
  · cases isRead
    exact ⟨_, _, rfl⟩
  · obtain ⟨power, -, isDecimal⟩ := Option.map_eq_some_iff.mp isRead
    exact ⟨_, _, isDecimal.symm⟩
  · obtain ⟨power, -, isDecimal⟩ := Option.map_eq_some_iff.mp isRead
    exact ⟨_, _, isDecimal.symm⟩
  · cases isRead
  · cases isRead

theorem signed?_held {t : Text} {x : Number} (isRead : signed? t = some x)
    (isFinite : x.isFinite = true) : Held x := by
  rw [signed?.eq_def] at isRead
  split at isRead
  split at isRead
  · cases isRead
    cases isFinite
  · obtain ⟨digits, place, rfl⟩ := decimal?_eq isRead
    exact ofDecimal_held isFinite

end Number

namespace Assoc

variable {α : Type}

theorem mem_values_ofList {entries : List (Text × α)} {value : α}
    (listed : value ∈ values (ofList entries)) : value ∈ values entries := by
  have goesOn : ∀ table : Assoc α,
      value ∈ values (entries.foldl (fun table entry => set table entry.1 entry.2) table) →
      value ∈ values table ∨ value ∈ values entries := by
    clear listed
    induction entries with
    | nil => exact fun table listed => Or.inl listed
    | cons entry rest ih =>
        intro table listed
        rcases ih _ listed with earlier | later
        · rcases mem_values_set earlier with rfl | older
          · exact Or.inr List.mem_cons_self
          · exact Or.inl older
        · exact Or.inr (List.mem_cons_of_mem _ later)
  rcases goesOn [] listed with absent | isEntry
  · cases absent
  · exact isEntry

end Assoc

namespace Json

/-! Enumeration order keeps values. -/

theorem mem_insertIndexed {α : Type} {index : Nat} {field : Text × α}
    {sorted : List (Nat × (Text × α))} {entry : Nat × (Text × α)}
    (listed : entry ∈ insertIndexed index field sorted) :
    entry = (index, field) ∨ entry ∈ sorted := by
  induction sorted with
  | nil => exact Or.inl (List.mem_singleton.mp listed)
  | cons first rest ih =>
      rw [insertIndexed] at listed
      split at listed
      · exact List.mem_cons.mp listed
      · rcases List.mem_cons.mp listed with isFirst | later
        · exact Or.inr (isFirst ▸ List.mem_cons_self)
        · exact (ih later).imp_right (List.mem_cons_of_mem _)

theorem mem_indexed {α : Type} {fields : List (Text × α)} {sorted : List (Nat × (Text × α))}
    {entry : Nat × (Text × α)}
    (listed : entry ∈ fields.foldl (fun sorted field =>
      match arrayIndex? field.1 with
      | some index => insertIndexed index field sorted
      | none => sorted) sorted) : entry ∈ sorted ∨ entry.2 ∈ fields := by
  induction fields generalizing sorted with
  | nil => exact Or.inl listed
  | cons field rest ih =>
      rcases ih listed with earlier | later
      · dsimp only at earlier
        split at earlier
        · rcases mem_insertIndexed earlier with rfl | older
          · exact Or.inr List.mem_cons_self
          · exact Or.inl older
        · exact Or.inl earlier
      · exact Or.inr (List.mem_cons_of_mem _ later)

theorem mem_values_enumerate {α : Type} {fields : List (Text × α)} {value : α}
    (listed : value ∈ Assoc.values (enumerate fields)) : value ∈ Assoc.values fields := by
  apply Assoc.mem_values_ofList
  obtain ⟨field, isField, rfl⟩ := List.mem_map.mp listed
  rw [enumerate, List.mem_append] at isField
  rcases isField with isIndexed | isNamed
  · obtain ⟨entry, isEntry, rfl⟩ := List.mem_map.mp isIndexed
    rcases mem_indexed isEntry with absent | isUnique
    · cases absent
    · exact List.mem_map_of_mem isUnique
  · exact List.mem_map_of_mem (List.mem_of_mem_filter isNamed)

/-! Values whose numbers are held. -/

/-- Every finite number in the value has at most 53 bits and an exponent in range. -/
inductive Held : Json → Prop
  | null : Held .null
  | bool (value : Bool) : Held (.bool value)
  | number {x : Number} (held : x.isFinite = true → x.Held) : Held (.number x)
  | text (value : Text) : Held (.text value)
  | array {items : List Json} (held : ∀ item ∈ items, Held item) : Held (.array items)
  | object {fields : List (Text × Json)} (held : ∀ value ∈ Assoc.values fields, Held value) :
      Held (.object fields)

theorem Held.get {j : Json} (held : j.Held) (name : Text) : (j.get name).Held := by
  rw [Json.get]
  cases held with
  | @object fields held =>
      cases found : field? name (.object fields) with
      | none => exact .null
      | some value => exact held value (Assoc.mem_values_of_get? found)
  | _ => exact .null

theorem Held.number_of {j : Json} (held : j.Held) {x : Number} (isNumber : j.number? = some x)
    (isFinite : x.isFinite = true) : x.Held := by
  cases held with
  | number held =>
      cases isNumber
      exact held isFinite
  | _ => cases isNumber

/-- What the three readers give within so many steps is held. -/
structure ReadsHeld (fuel : Nat) : Prop where
  value : ∀ {t rest : Text} {j : Json}, value? fuel t = some (j, rest) → j.Held
  items : ∀ {read : List Json} {t rest : Text} {j : Json}, (∀ item ∈ read, Held item) →
    arrayBody? fuel read t = some (j, rest) → j.Held
  fields : ∀ {read : List (Text × Json)} {t rest : Text} {j : Json},
    (∀ value ∈ Assoc.values read, Held value) → objectBody? fuel read t = some (j, rest) → j.Held

section Reading

variable {fuel : Nat} {t rest : Text} {j : Json}

theorem value_held (reads : ReadsHeld fuel) (isRead : value? (fuel + 1) t = some (j, rest)) :
    j.Held := by
  rw [value?] at isRead
  split at isRead
  · cases isRead
  · rename_i u more _
    split_ifs at isRead
    · obtain ⟨_, -, same⟩ := Option.map_eq_some_iff.mp isRead
      cases same
      exact .text _
    · split at isRead
      · split_ifs at isRead
        · cases isRead
          exact .array (List.forall_mem_nil _)
        · exact reads.items (List.forall_mem_nil _) isRead
      · cases isRead
    · split at isRead
      · split_ifs at isRead
        · cases isRead
          exact .object (List.forall_mem_nil _)
        · exact reads.fields (List.forall_mem_nil _) isRead
      · cases isRead
    · obtain ⟨_, -, same⟩ := Option.map_eq_some_iff.mp isRead
      cases same
      exact .bool true
    · obtain ⟨_, -, same⟩ := Option.map_eq_some_iff.mp isRead
      cases same
      exact .bool false
    · obtain ⟨_, -, same⟩ := Option.map_eq_some_iff.mp isRead
      cases same
      exact .null
    · obtain ⟨_, isNumber, same⟩ := Option.map_eq_some_iff.mp isRead
      cases same
      exact .number (Number.signed?_held isNumber)

theorem items_held (reads : ReadsHeld fuel) {read : List Json} (held : ∀ item ∈ read, Held item)
    (isRead : arrayBody? (fuel + 1) read t = some (j, rest)) : j.Held := by
  rw [arrayBody?] at isRead
  split at isRead
  · cases isRead
  · rename_i item more readItem
    have longer : ∀ other ∈ item :: read, Held other :=
      List.forall_mem_cons.mpr ⟨reads.value readItem, held⟩
    split at isRead
    · split_ifs at isRead
      · exact reads.items longer isRead
      · cases isRead
        exact .array fun other listed => longer other (List.mem_reverse.mp listed)
    · cases isRead

theorem fields_held (reads : ReadsHeld fuel) {read : List (Text × Json)}
    (held : ∀ value ∈ Assoc.values read, Held value)
    (isRead : objectBody? (fuel + 1) read t = some (j, rest)) : j.Held := by
  rw [objectBody?] at isRead
  split at isRead
  case h_1 => cases isRead
  case h_2 quote afterQuote _ =>
    split_ifs at isRead
    split at isRead
    case h_1 => cases isRead
    case h_2 name afterName _ =>
      split at isRead
      case h_1 => cases isRead
      case h_2 colon afterColon _ =>
        split_ifs at isRead
        split at isRead
        case h_1 => cases isRead
        case h_2 value afterValue readValue =>
          have longer : ∀ other ∈ Assoc.values ((name, value) :: read), Held other :=
            List.forall_mem_cons.mpr ⟨reads.value readValue, held⟩
          split at isRead
          case h_1 closing more _ =>
            split_ifs at isRead
            case pos isComma => exact reads.fields longer isRead
            case pos isBrace =>
              cases isRead
              refine .object fun other listed => longer other ?_
              have among := mem_values_enumerate listed
              rw [Assoc.values, List.map_reverse, List.mem_reverse] at among
              exact among
          case h_2 => cases isRead

end Reading

/-- Every number in a value that is read is held. -/
theorem read?_held {source : Text} {j : Json} (isRead : read? source = some j) : j.Held := by
  have reads : ∀ fuel, ReadsHeld fuel := by
    intro fuel
    induction fuel with
    | zero => exact ⟨nofun, nofun, nofun⟩
    | succ fuel ih => exact ⟨value_held ih, items_held ih, fields_held ih⟩
  rw [read?] at isRead
  split at isRead
  · rename_i isValue
    split_ifs at isRead
    cases isRead
    exact (reads _).value isValue
  · cases isRead

end Json

end TabCompletion
