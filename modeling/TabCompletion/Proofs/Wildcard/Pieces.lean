import TabCompletion.Wildcard.Matcher

/-!
What lists of pieces match. The rows of answers are read one suffix at a time, which gives one
equation for each piece; from these, pieces in a row match what can be cut into what they match
one after the other.
-/

namespace TabCompletion.Wildcard

section Rows

variable {c : Comparison}

theorem accepts_single {piece : Piece} (single : piece ≠ .anyMany) (pieces : List Piece)
    (points : List Nat) :
    accepts c (piece :: pieces) points =
      points.zipWith (fun point ok => piece.test c point && ok) (accepts c pieces points).tail
        ++ [false] := by
  rw [accepts]
  exact single

/-- The first answer of a row is the one for the whole. -/
theorem accepts_eq_cons (pieces : List Piece) (points : List Nat) :
    accepts c pieces points =
      matchesAll c pieces points :: (accepts c pieces points).tail := by
  have nonempty : accepts c pieces points ≠ [] := by
    induction pieces with
    | nil => simp [accepts]
    | cons piece rest ih =>
        by_cases star : piece = .anyMany
        · obtain ⟨here, later, row⟩ := List.exists_cons_of_ne_nil ih
          simp [star, accepts, row, someSuffix]
        · simp [accepts_single star]
  obtain ⟨here, later, row⟩ := List.exists_cons_of_ne_nil nonempty
  rw [matchesAll, row]
  rfl

/-- The later answers are the row of the shorter text. -/
theorem accepts_cons_tail (pieces : List Piece) (point : Nat) (points : List Nat) :
    (accepts c pieces (point :: points)).tail = accepts c pieces points := by
  induction pieces with
  | nil => rfl
  | cons piece rest ih =>
      by_cases star : piece = .anyMany
      · rw [star, accepts, accepts_eq_cons rest (point :: points), ih]
        rfl
      · rw [accepts_single star, accepts_single star, ih, accepts_eq_cons rest points]
        rfl

end Rows

/-! One equation for each piece. -/

section Pieces

variable {c : Comparison} {piece : Piece} {pieces more : List Piece} {point : Nat}
  {points : List Nat}

theorem matchesAll_nil : matchesAll c [] points = true ↔ points = [] := by
  cases points <;> simp [matchesAll, accepts]

theorem matchesAll_many_nil : matchesAll c (.anyMany :: pieces) [] = matchesAll c pieces [] := by
  have alone : (accepts c pieces []).tail = [] := by
    induction pieces with
    | nil => rfl
    | cons piece rest ih =>
        by_cases star : piece = .anyMany
        · rw [star, accepts, accepts_eq_cons rest [], ih]
          rfl
        · rw [accepts_single star]
          rfl
  rw [matchesAll, accepts, accepts_eq_cons pieces [], alone]
  simp [someSuffix]

theorem matchesAll_many_cons :
    matchesAll c (.anyMany :: pieces) (point :: points) =
      (matchesAll c pieces (point :: points) || matchesAll c (.anyMany :: pieces) points) := by
  rw [matchesAll, accepts, accepts_eq_cons pieces (point :: points), accepts_cons_tail]
  rfl

theorem matchesAll_single_nil (single : piece ≠ .anyMany) :
    matchesAll c (piece :: pieces) [] = false := by
  rw [matchesAll, accepts_single single]
  rfl

theorem matchesAll_single_cons (single : piece ≠ .anyMany) :
    matchesAll c (piece :: pieces) (point :: points) =
      (piece.test c point && matchesAll c pieces points) := by
  rw [matchesAll, accepts_single single, accepts_cons_tail, accepts_eq_cons pieces points]
  rfl

/-- A star takes any number of points. -/
theorem matchesAll_many_iff :
    matchesAll c (.anyMany :: pieces) points = true ↔
      ∃ front back, points = front ++ back ∧ matchesAll c pieces back = true := by
  induction points with
  | nil =>
      rw [matchesAll_many_nil]
      constructor
      · exact fun fits => ⟨[], [], rfl, fits⟩
      · rintro ⟨front, back, split, fits⟩
        obtain ⟨-, rfl⟩ := List.append_eq_nil_iff.mp split.symm
        exact fits
  | cons point rest ih =>
      rw [matchesAll_many_cons, Bool.or_eq_true, ih]
      constructor
      · rintro (fits | ⟨front, back, rfl, fits⟩)
        · exact ⟨[], point :: rest, rfl, fits⟩
        · exact ⟨point :: front, back, rfl, fits⟩
      · rintro ⟨front, back, split, fits⟩
        cases front with
        | nil => exact Or.inl (split ▸ fits)
        | cons first others =>
            obtain ⟨-, rfl⟩ := List.cons.inj split
            exact Or.inr ⟨others, back, rfl, fits⟩

theorem matchesAll_single_iff (single : piece ≠ .anyMany) :
    matchesAll c (piece :: pieces) points = true ↔
      ∃ point rest, points = point :: rest ∧ piece.test c point = true ∧
        matchesAll c pieces rest = true := by
  cases points with
  | nil =>
      rw [matchesAll_single_nil single]
      constructor
      · exact fun impossible => nomatch impossible
      · rintro ⟨_, _, impossible, _⟩
        cases impossible
  | cons point rest =>
      rw [matchesAll_single_cons single, Bool.and_eq_true]
      constructor
      · exact fun ⟨taken, fits⟩ => ⟨point, rest, rfl, taken, fits⟩
      · rintro ⟨_, _, split, taken, fits⟩
        obtain ⟨rfl, rfl⟩ := List.cons.inj split
        exact ⟨taken, fits⟩

/-- Pieces in a row match one after the other. -/
theorem matchesAll_append :
    matchesAll c (pieces ++ more) points = true ↔
      ∃ front back, points = front ++ back ∧ matchesAll c pieces front = true ∧
        matchesAll c more back = true := by
  induction pieces generalizing points with
  | nil =>
      constructor
      · exact fun fits => ⟨[], points, rfl, matchesAll_nil.mpr rfl, fits⟩
      · rintro ⟨front, back, rfl, isEmpty, fits⟩
        rw [matchesAll_nil.mp isEmpty]
        exact fits
  | cons piece rest ih =>
      rw [List.cons_append]
      -- A star skips any number of points, every other piece takes one.
      by_cases star : piece = .anyMany
      · subst star
        rw [matchesAll_many_iff]
        constructor
        · rintro ⟨skipped, others, rfl, fits⟩
          obtain ⟨front, back, rfl, fitsFront, fitsBack⟩ := ih.mp fits
          have fitsLonger := matchesAll_many_iff.mpr ⟨skipped, front, rfl, fitsFront⟩
          exact ⟨skipped ++ front, back, by simp, fitsLonger, fitsBack⟩
        · rintro ⟨front, back, rfl, fitsFront, fitsBack⟩
          obtain ⟨skipped, others, rfl, fits⟩ := matchesAll_many_iff.mp fitsFront
          exact ⟨skipped, others ++ back, by simp, ih.mpr ⟨others, back, rfl, fits, fitsBack⟩⟩
      · rw [matchesAll_single_iff star]
        constructor
        · rintro ⟨point, others, rfl, taken, fits⟩
          obtain ⟨front, back, rfl, fitsFront, fitsBack⟩ := ih.mp fits
          have fitsLonger := (matchesAll_single_iff star).mpr ⟨point, front, rfl, taken, fitsFront⟩
          exact ⟨point :: front, back, rfl, fitsLonger, fitsBack⟩
        · rintro ⟨front, back, rfl, fitsFront, fitsBack⟩
          obtain ⟨point, others, rfl, taken, fits⟩ := (matchesAll_single_iff star).mp fitsFront
          exact ⟨point, others ++ back, rfl, taken, ih.mpr ⟨others, back, rfl, fits, fitsBack⟩⟩

/-- Only stars match nothing. -/
theorem matchesAll_empty :
    matchesAll c pieces [] = true ↔ ∀ piece ∈ pieces, piece = .anyMany := by
  induction pieces with
  | nil => simp [matchesAll_nil]
  | cons piece rest ih =>
      by_cases star : piece = .anyMany
      · rw [star, matchesAll_many_nil, ih]
        simp
      · simp [matchesAll_single_nil star, star]

theorem matchesAll_stars (nonempty : pieces ≠ []) (stars : ∀ piece ∈ pieces, piece = .anyMany) :
    matchesAll c pieces points = true := by
  obtain ⟨first, rest, rfl⟩ := List.exists_cons_of_ne_nil nonempty
  rw [stars first List.mem_cons_self, matchesAll_many_iff]
  refine ⟨points, [], by simp, matchesAll_empty.mpr ?_⟩
  exact fun piece later => stars piece (List.mem_cons_of_mem _ later)

/-- A star at the end takes whatever follows. -/
theorem matchesAll_append_many :
    matchesAll c (pieces ++ [.anyMany]) points = true ↔
      ∃ front back, points = front ++ back ∧ matchesAll c pieces front = true := by
  have anything : ∀ back, matchesAll c [.anyMany] back = true := fun back =>
    matchesAll_stars (by simp) (by simp)
  simp only [matchesAll_append, anything, and_true]

theorem matchesAll_append_never : matchesAll c (pieces ++ [.never]) points = false := by
  rw [Bool.eq_false_iff]
  intro fits
  obtain ⟨front, back, -, -, impossible⟩ := matchesAll_append.mp fits
  cases back with
  | nil => cases impossible
  | cons point rest =>
      rw [matchesAll_single_cons (by simp)] at impossible
      cases impossible

theorem matchesAll_append_literal (fits : matchesAll c (pieces ++ [.literal point]) points = true) :
    ∃ front last, points = front ++ [last] ∧ c.same point last = true := by
  obtain ⟨front, back, rfl, -, taken⟩ := matchesAll_append.mp fits
  cases back with
  | nil => cases taken
  | cons last rest =>
      rw [matchesAll_single_cons (by simp), Bool.and_eq_true, matchesAll_nil] at taken
      obtain ⟨same, rfl⟩ := taken
      exact ⟨front, last, rfl, same⟩

theorem Comparison.same_refl (c : Comparison) (point : Nat) : c.same point point = true := by
  cases c with
  | exact byPoints => simp [Comparison.same]
  | ignoringCase byPoints => cases byPoints <;> simp [Comparison.same]

theorem matchesAll_literals (c : Comparison) (points : List Nat) :
    matchesAll c (points.map .literal) points = true := by
  induction points with
  | nil => exact matchesAll_nil.mpr rfl
  | cons point rest ih =>
      rw [List.map_cons, matchesAll_single_cons (by simp), ih, Bool.and_true]
      exact c.same_refl point

end Pieces

end TabCompletion.Wildcard
