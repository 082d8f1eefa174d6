import Mathlib.Data.List.Infix
import TabCompletion.Proofs.Text.CaseClass
import TabCompletion.Wildcard.Pattern

/-!
What a pattern stands for. Read character by character, a star stands for any text, a question
mark for any one unit and every other character for itself, as does a character behind a backtick.
Compiled pieces run against all suffixes of a text at once; they accept those that the signs they
come from stand for.
-/

namespace TabCompletion.Wildcard

/-! Reading a pattern. -/

section Reading

/-- A character of a pattern and whether a backtick stands before it. -/
structure Mark where
  unit : CodeUnit
  escaped : Bool
  deriving DecidableEq

def marks : Text → List Mark
  | [] => []
  | [u] => [⟨u, false⟩]
  | u :: v :: rest =>
      if u == '\x60' then ⟨v, true⟩ :: marks rest else ⟨u, false⟩ :: marks (v :: rest)

inductive Sign where
  | unit (u : CodeUnit)
  | one
  | many

def Mark.sign (m : Mark) : Sign :=
  if m.escaped then .unit m.unit
  else if m.unit == '*' then .many
  else if m.unit == '?' then .one
  else .unit m.unit

def Sign.takes (c : Comparison) : Sign → CodeUnit → Bool
  | .unit u, w => c.same u.toNat w.toNat
  | _, _ => true

/-- Whether the signs, one after the other, stand for the whole text. -/
def fits (c : Comparison) : List Sign → Text → Bool
  | [], t => t.isEmpty
  | .many :: signs, t => t.tails.any (fits c signs)
  | _ :: _, [] => false
  | sign :: signs, w :: rest => sign.takes c w && fits c signs rest

def unitwise (caseSensitive : Bool) : Comparison :=
  if caseSensitive then .exact false else .ignoringCase false

/-- Whether the pattern, read character by character, stands for the text. -/
def standsFor (p : Text) (caseSensitive : Bool) (t : Text) : Bool :=
  fits (unitwise caseSensitive) ((marks p).map Mark.sign) t

variable {c : Comparison} {signs : List Sign} {t : Text}

theorem fits_many : fits c (.many :: signs) t = true ↔ ∃ s, s <:+ t ∧ fits c signs s = true := by
  simp [fits, List.any_eq_true]

theorem fits_cons {sign : Sign} (single : sign ≠ .many) (w : CodeUnit) (rest : Text) :
    fits c (sign :: signs) (w :: rest) = (sign.takes c w && fits c signs rest) := by
  cases sign <;> simp_all [fits]

/-- Only stars stand for the empty text. -/
theorem fits_nil : fits c signs [] = true ↔ ∀ sign ∈ signs, sign = .many := by
  induction signs with
  | nil => simp [fits]
  | cons sign rest ih => cases sign <;> simp [fits, ih]

theorem fits_stars (some : signs ≠ []) (stars : ∀ sign ∈ signs, sign = .many) :
    fits c signs t = true := by
  cases signs with
  | nil => exact absurd rfl some
  | cons sign rest =>
      rw [stars sign List.mem_cons_self, fits_many]
      exact ⟨[], List.nil_suffix, fits_nil.mpr fun sign later =>
        stars sign (List.mem_cons_of_mem _ later)⟩

theorem fits_starred (n : Nat) : fits c (List.replicate (n + 1) .many ++ signs) t = true ↔
    ∃ s, s <:+ t ∧ fits c signs s = true := by
  induction n generalizing t with
  | zero => exact fits_many
  | succ n ih =>
      rw [List.replicate_succ, List.cons_append, fits_many]
      constructor
      · rintro ⟨s, isSuffix, fit⟩
        obtain ⟨s', isSuffix', fit'⟩ := ih.mp fit
        exact ⟨s', isSuffix'.trans isSuffix, fit'⟩
      · rintro ⟨s, isSuffix, fit⟩
        exact ⟨s, isSuffix, ih.mpr ⟨s, List.suffix_refl s, fit⟩⟩

end Reading

/-! Slashes. -/

section Slashes

def slash (u : CodeUnit) : CodeUnit := if u == '/' then slashStandIn else u

theorem Pattern.test_eq (p : Pattern) (t : Text) : p.test t = p.matcher.test (t.map slash) := rfl

variable {u w x : CodeUnit} {t other : Text}

theorem slash_of_ne (other : u ≠ '/') : slash u = u := if_neg (by rwa [beq_iff_eq])

theorem slash_eq (plain : x ≠ slashStandIn ∧ x ≠ '/') : slash u = x ↔ u = x := by
  by_cases isSlash : u = '/'
  · rw [isSlash]
    exact ⟨fun same => absurd same.symm plain.1, fun same => absurd same.symm plain.2⟩
  · rw [slash_of_ne isSlash]

theorem slashed_eq (plain : slashStandIn ∉ other ∧ ('/' : CodeUnit) ∉ other) :
    t.map slash = other ↔ t = other := by
  induction t generalizing other with
  | nil => simp
  | cons u rest ih =>
      cases other with
      | nil => simp
      | cons x more =>
          simp only [List.mem_cons, not_or] at plain
          simp only [List.map_cons, List.cons.injEq]
          rw [slash_eq ⟨Ne.symm plain.1.1, Ne.symm plain.2.1⟩, ih ⟨plain.1.2, plain.2.2⟩]

theorem isDots_iff : isDots t = true ↔ t = Text.ofString "." ∨ t = Text.ofString ".." := by
  rw [isDots, Bool.or_eq_true, beq_iff_eq, beq_iff_eq]

theorem isDots_slashed : isDots (t.map slash) = isDots t := by
  have dot : t.map slash = Text.ofString "." ↔ t = Text.ofString "." := slashed_eq (by decide)
  have dots : t.map slash = Text.ofString ".." ↔ t = Text.ofString ".." := slashed_eq (by decide)
  rw [Bool.eq_iff_iff, isDots_iff, isDots_iff, dot, dots]

end Slashes

/-! Units that are alone in their class. -/

section Classes

variable {cs : Bool} {u w : CodeUnit}

theorem same_of_caseless (caseless : ¬Text.IsCapital u.toNat)
    (own : Text.unitClass u.toNat = u.toNat) :
    (unitwise cs).same u.toNat w.toNat = true ↔ w = u := by
  rw [← UInt16.toNat_inj]
  cases cs with
  | true => exact beq_iff_eq.trans eq_comm
  | false =>
      refine beq_iff_eq.trans ⟨fun same => ?_, fun same => ?_⟩
      · exact Text.alone_of_caseless caseless own same.symm
      · rw [same]

theorem same_dot : (unitwise cs).same 0x2E w.toNat = true ↔ w = '.' := by
  have capital : ¬Text.IsCapital ('.' : CodeUnit).toNat := not_not_intro (by decide)
  exact same_of_caseless capital (by decide)

theorem same_slash : (unitwise cs).same ('/' : CodeUnit).toNat w.toNat = true ↔ w = '/' := by
  have capital : ¬Text.IsCapital ('/' : CodeUnit).toNat := not_not_intro (by decide)
  exact same_of_caseless capital (by decide)

theorem same_standIn :
    (unitwise cs).same slashStandIn.toNat w.toNat = true ↔ w = slashStandIn := by
  have caseless := Text.not_capital_between (show 0xD800 ≤ slashStandIn.toNat ∧ _ by decide)
  exact same_of_caseless caseless.1 caseless.2

theorem same_comm (a b : Nat) : (unitwise cs).same a b = (unitwise cs).same b a := by
  cases cs <;> exact Bool.beq_comm

theorem same_self (a : Nat) : (unitwise cs).same a a = true := by
  cases cs <;> exact beq_self_eq_true _

theorem same_slashed (plain : u ≠ slashStandIn) (plain' : w ≠ slashStandIn) :
    (unitwise cs).same (slash u).toNat (slash w).toNat = (unitwise cs).same u.toNat w.toNat := by
  have apart : ∀ {v : CodeUnit}, v ≠ slashStandIn → v ≠ '/' →
      (unitwise cs).same slashStandIn.toNat v.toNat =
        (unitwise cs).same ('/' : CodeUnit).toNat v.toNat := by
    intro v other other'
    rw [Bool.eq_iff_iff, same_standIn, same_slash]
    exact ⟨fun same => absurd same other, fun same => absurd same other'⟩
  by_cases isSlash : u = '/' <;> by_cases isSlash' : w = '/'
  · rw [isSlash, isSlash', same_slash.mpr rfl]
    exact same_standIn.mpr rfl
  · rw [isSlash, slash_of_ne isSlash']
    exact apart plain' isSlash'
  · rw [isSlash', slash_of_ne isSlash, same_comm, same_comm u.toNat]
    exact apart plain isSlash
  · rw [slash_of_ne isSlash, slash_of_ne isSlash']

end Classes

/-! Rows of answers. -/

section Rows

def Sign.piece : Sign → Piece
  | .unit u => .literal (slash u).toNat
  | .one => .anyOne
  | .many => .anyMany

theorem someSuffix_tails (answer : Text → Bool) (t : Text) :
    someSuffix (t.tails.map answer) = t.tails.map fun s => s.tails.any answer := by
  induction t with
  | nil => simp [someSuffix]
  | cons w rest ih =>
      simp only [List.tails_cons, List.map_cons, someSuffix, ih, List.any_cons]
      cases rest <;> simp

theorem accepts_nil (c : Comparison) (view : CodeUnit → Nat) (t : Text) :
    accepts c [] (t.map view) = t.tails.map (fits c []) := by
  induction t with
  | nil => rfl
  | cons w rest ih =>
      rw [List.tails_cons, List.map_cons, List.map_cons, ← ih]
      rfl

theorem zipWith_tails (takes : Nat → Bool) (view : CodeUnit → Nat) (answer answer' : Text → Bool)
    {t : Text} (ends : answer' [] = false)
    (step : ∀ w ∈ t, ∀ rest, answer' (w :: rest) = (takes (view w) && answer rest)) :
    (t.map view).zipWith (fun point ok => takes point && ok) (t.tails.map answer).tail ++ [false] =
      t.tails.map answer' := by
  induction t with
  | nil => simp [ends]
  | cons w rest ih =>
      have later := ih fun u isRest => step u (List.mem_cons_of_mem _ isRest)
      have here := step w List.mem_cons_self rest
      cases rest <;> simp_all

/-- No sign is the stand-in of a slash. -/
def Unmixed (signs : List Sign) : Prop := ∀ u, .unit u ∈ signs → u ≠ slashStandIn

variable {cs : Bool} {signs : List Sign} {t : Text}

theorem test_piece {sign : Sign} {w : CodeUnit} (unmixed : ∀ u, sign = .unit u → u ≠ slashStandIn)
    (plain : w ≠ slashStandIn) :
    sign.piece.test (unitwise cs) (slash w).toNat = sign.takes (unitwise cs) w := by
  cases sign with
  | unit u => exact same_slashed (unmixed u rfl) plain
  | one => rfl
  | many => rfl

/-- The pieces of a pattern take the suffixes of a text that its signs stand for. -/
theorem accepts_signs (unmixed : Unmixed signs) (plain : slashStandIn ∉ t) :
    accepts (unitwise cs) (signs.map Sign.piece) (t.map fun u => (slash u).toNat) =
      t.tails.map (fits (unitwise cs) signs) := by
  induction signs with
  | nil => exact accepts_nil _ _ t
  | cons sign rest ih =>
      have row := ih fun u later => unmixed u (List.mem_cons_of_mem _ later)
      -- A star looks at all later answers of the row, any other sign at the next one.
      by_cases star : sign = .many
      · subst star
        rw [List.map_cons, Sign.piece, accepts, row, someSuffix_tails]
        rfl
      · have single : sign.piece ≠ .anyMany := by
          cases sign <;> simp_all [Sign.piece]
        rw [List.map_cons, accepts, row]
        · refine zipWith_tails _ _ _ _ ?_ fun w listed rest' => ?_
          · cases sign <;> simp_all [fits]
          · have isPlain : w ≠ slashStandIn := fun same => plain (same ▸ listed)
            have isUnit : ∀ u, sign = .unit u → u ≠ slashStandIn :=
              fun u same => unmixed u (same ▸ List.mem_cons_self)
            rw [fits_cons star, test_piece isUnit isPlain]
        · exact single

theorem matchesAll_signs (unmixed : Unmixed signs) (plain : slashStandIn ∉ t) :
    matchesAll (unitwise cs) (signs.map Sign.piece) ((unitwise cs).view (t.map slash)) =
      fits (unitwise cs) signs t := by
  have view : (unitwise cs).view (t.map slash) = t.map fun u => (slash u).toNat := by
    cases cs <;> simp [unitwise, Comparison.view]
  rw [matchesAll, view, accepts_signs unmixed plain]
  cases t <;> simp

end Rows

/-! Texts that signs stand for. -/

section Fitting

variable {cs : Bool} {signs : List Sign} {us t : Text}

theorem fits_units (plain : slashStandIn ∉ us) (plain' : slashStandIn ∉ t)
    (alone : ∀ u ∈ us, ∀ w : CodeUnit,
      (unitwise cs).same (slash u).toNat w.toNat = true → w = slash u) :
    fits (unitwise cs) (us.map .unit) t = true ↔ t.map slash = us.map slash := by
  induction us generalizing t with
  | nil => simp [fits]
  | cons u more ih =>
      cases t with
      | nil => simp [fits]
      | cons w rest =>
          simp only [List.mem_cons, not_or] at plain plain'
          have same : (unitwise cs).same u.toNat w.toNat = true ↔ slash w = slash u := by
            rw [← same_slashed (Ne.symm plain.1) (Ne.symm plain'.1)]
            exact ⟨alone u List.mem_cons_self _, fun equal => by rw [equal, same_self]⟩
          rw [List.map_cons, fits_cons (by simp), Sign.takes, Bool.and_eq_true, same,
            ih plain.2 plain'.2 fun u later => alone u (List.mem_cons_of_mem _ later)]
          simp only [List.map_cons, List.cons.injEq]

theorem fits_at_dot {u : CodeUnit} (fit : fits (unitwise cs) (.unit u :: signs) ('.' :: t) = true) :
    u = '.' ∧ fits (unitwise cs) signs t = true := by
  rw [fits_cons (by simp), Bool.and_eq_true, Sign.takes, same_comm] at fit
  exact ⟨same_dot.mp fit.1, fit.2⟩

/-- Signs that stand for a dot text and do not end in a dot have a wildcard after at most two
dots. -/
theorem startsOpen_of_fits (dots : isDots t = true) (fit : fits (unitwise cs) signs t = true)
    (ends : signs.getLast? ≠ some (.unit '.')) : startsOpen (signs.map Sign.piece) = true := by
  have short : ∃ later : Text, t = ('.' : CodeUnit) :: later ∧
      (later = [] ∨ later = [('.' : CodeUnit)]) := by
    rcases isDots_iff.mp dots with one | two
    · exact ⟨[], one, Or.inl rfl⟩
    · exact ⟨['.'], two, Or.inr rfl⟩
  obtain ⟨later, rfl, short⟩ := short
  rcases signs with _ | ⟨_ | _ | _, rest⟩
  · simp [fits] at fit
  · obtain ⟨rfl, fit'⟩ := fits_at_dot fit
    rcases rest with _ | ⟨_ | _ | _, rest⟩
    · exact absurd rfl ends
    · rcases short with rfl | rfl
      · simp [fits] at fit'
      · obtain ⟨rfl, fit''⟩ := fits_at_dot fit'
        -- Both dots are taken, so nothing but stars can follow.
        rcases rest with _ | ⟨third, rest⟩
        · exact absurd rfl ends
        · rw [fits_nil.mp fit'' third List.mem_cons_self]
          rfl
    · rfl
    · rfl
  · rfl
  · rfl

theorem fits_dot {n : Nat} :
    fits (unitwise cs) (.unit '.' :: List.replicate (n + 1) .many) t = true ↔
      ∃ rest, t = ('.' : CodeUnit) :: rest := by
  cases t with
  | nil => simp [fits]
  | cons w rest =>
      have stars : fits (unitwise cs) (List.replicate (n + 1) .many) rest = true :=
        fits_stars (by simp) fun sign listed => List.eq_of_mem_replicate listed
      rw [fits_cons (by simp), stars, Bool.and_true]
      exact same_dot.trans (by simp)

theorem fits_starred_dot {k n : Nat} :
    fits (unitwise cs)
        (List.replicate (k + 1) .many ++ .unit '.' :: List.replicate (n + 1) .many) t = true ↔
      ('.' : CodeUnit) ∈ t := by
  rw [fits_starred, List.mem_iff_append]
  simp only [fits_dot]
  constructor
  · rintro ⟨s, ⟨front, split⟩, rest, rfl⟩
    exact ⟨front, rest, split.symm⟩
  · rintro ⟨front, rest, split⟩
    exact ⟨_, ⟨front, split.symm⟩, rest, rfl⟩

end Fitting

end TabCompletion.Wildcard
