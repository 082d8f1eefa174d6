import TabCompletion.Proofs.Text.Folding
import TabCompletion.Proofs.Wildcard.Effects

/-!
Texts with the same letters. A pattern that ignores case and ends in a star does not tell apart two
texts whose units are of the same case classes, whether it is compared as one text, has a matcher of
its own or is matched piece by piece, by units or by code points.
-/

namespace TabCompletion.Wildcard

open Text (SameLetters)

/-! Pieces. -/

section Pieces

variable {c : Comparison} {a b : Nat} {pieces : List Piece} {ps qs : List Nat}

theorem mem_variants_unit (x : Nat) :
    x ∈ (Comparison.ignoringCase false).variants a ↔ Text.unitClass x = Text.unitClass a := by
  have found : Text.unitClass x = Text.unitClass a →
      x ∈ Text.preimages Text.upperRuns (Text.unitClass a) := by
    intro same
    rw [← same]
    by_cases own : Text.unitClass x = x
    · rw [own]
      exact List.mem_cons_self
    · exact Text.mem_preimages Text.checked.upperMoves (Text.shiftBy_of_moved own)
  simp only [Comparison.variants, List.mem_cons, List.mem_filter, beq_iff_eq]
  constructor
  · rintro (rfl | ⟨-, same⟩)
    · rfl
    · exact same
  · exact fun same => Or.inr ⟨found same, same⟩

theorem mem_variants_point (x : Nat) :
    x ∈ (Comparison.ignoringCase true).variants a ↔
      x ∈ Text.preimages Text.foldRuns (Text.fold a) := by
  have itself : a ∈ Text.preimages Text.foldRuns (Text.fold a) :=
    Text.mem_preimages Text.checkedFolds.foldMoves rfl
  simp only [Comparison.variants, List.mem_cons, or_iff_right_iff_imp]
  rintro rfl
  exact itself

/-- Points that count as the same letter have the same variants. -/
theorem mem_variants_congr (same : c.same a b = true) (x : Nat) :
    x ∈ c.variants a ↔ x ∈ c.variants b := by
  cases c with
  | exact byPoints => rw [beq_iff_eq.mp same]
  | ignoringCase byPoints =>
      cases byPoints with
      | true => rw [mem_variants_point, mem_variants_point, beq_iff_eq.mp same]
      | false => rw [mem_variants_unit, mem_variants_unit, beq_iff_eq.mp same]

theorem holdsAny_congr (same : c.same a b = true) (members : List Member) :
    holdsAny c members a = holdsAny c members b := by
  rw [holdsAny, holdsAny, Bool.eq_iff_iff, List.any_eq_true, List.any_eq_true]
  simp only [mem_variants_congr same]

theorem same_congr (same : c.same a b = true) (expected : Nat) :
    c.same expected a = c.same expected b := by
  cases c with
  | exact byPoints => rw [beq_iff_eq.mp same]
  | ignoringCase byPoints =>
      cases byPoints <;> simp only [Comparison.same, beq_iff_eq] at same ⊢ <;> rw [same]

/-- A piece takes one of two points that count as the same letter if it takes the other. -/
theorem Piece.test_congr (same : c.same a b = true) (piece : Piece) :
    piece.test c a = piece.test c b := by
  cases piece with
  | literal expected => exact same_congr same expected
  | anyOne => rfl
  | anyMany => rfl
  | oneOf set => simp only [Piece.test, CharSet.test, holdsAny_congr same]
  | never => rfl

theorem matchesAll_congr (same : List.Forall₂ (fun p q => c.same p q = true) ps qs) :
    matchesAll c pieces ps = matchesAll c pieces qs := by
  induction pieces generalizing ps qs with
  | nil => cases same <;> rfl
  | cons piece rest ih =>
      by_cases star : piece = .anyMany
      · subst star
        induction same with
        | nil => rfl
        | cons first later ih' =>
            rw [matchesAll_many_cons, matchesAll_many_cons, ih', ih (.cons first later)]
      · cases same with
        | nil => rfl
        | cons first later =>
            rw [matchesAll_single_cons star, matchesAll_single_cons star, Piece.test_congr first,
              ih later]

end Pieces

/-! Matchers. -/

section Matchers

variable {s t us g : Text}

theorem sameText_iff : (unitwise false).SameText s t ↔ SameLetters s t := by
  have same : ∀ u w : CodeUnit, (unitwise false).same u.toNat w.toNat = true ↔
      Text.unitClass u.toNat = Text.unitClass w.toNat := fun u w => beq_iff_eq
  simp only [Comparison.SameText, SameLetters, same]

/-- A text whose units are alone in their classes is told apart from all others. -/
theorem eq_iff_of_sameLetters (same : SameLetters s t) (alone : ∀ u ∈ us, ∀ w : CodeUnit,
    (unitwise false).same u.toNat w.toNat = true → w = u) : s = us ↔ t = us := by
  rw [← sameText_iff] at same
  constructor
  · rintro rfl
    exact (sameText_alone alone).mp same
  · rintro rfl
    refine (sameText_alone alone).mp ?_
    exact (List.Forall₂.flip same).imp fun _ _ equal => by rwa [same_comm]

theorem alone_sign {sign w : CodeUnit} (caseless : ¬Text.IsCapital sign.toNat)
    (own : Text.unitClass sign.toNat = sign.toNat)
    (same : Text.unitClass w.toNat = Text.unitClass sign.toNat) : w = sign :=
  UInt16.toNat_inj.mp (Text.alone_of_caseless caseless own same)

/-- A sign without letter case is the same as no other unit. -/
theorem sign_iff {sign u w : CodeUnit} (caseless : ¬Text.IsCapital sign.toNat)
    (own : Text.unitClass sign.toNat = sign.toNat)
    (same : Text.unitClass u.toNat = Text.unitClass w.toNat) : u = sign ↔ w = sign := by
  constructor
  · rintro rfl
    exact alone_sign caseless own same.symm
  · rintro rfl
    exact alone_sign caseless own same

theorem dot_iff {u w : CodeUnit} (same : Text.unitClass u.toNat = Text.unitClass w.toNat) :
    u = '.' ↔ w = '.' := sign_iff (not_not_intro (by decide)) (by decide) same

theorem isDots_congr (same : SameLetters s t) : isDots s = isDots t := by
  have alone : ∀ {us : Text}, (∀ u ∈ us, u = '.') → ∀ u ∈ us, ∀ w : CodeUnit,
      (unitwise false).same u.toNat w.toNat = true → w = u := by
    intro us dots u listed w equal
    rw [dots u listed] at equal ⊢
    exact same_dot.mp equal
  have one : ∀ u ∈ Text.ofString ".", u = '.' := List.forall_iff_forall_mem.mp (by decide)
  have two : ∀ u ∈ Text.ofString "..", u = '.' := List.forall_iff_forall_mem.mp (by decide)
  rw [Bool.eq_iff_iff, isDots_iff, isDots_iff, eq_iff_of_sameLetters same (alone one),
    eq_iff_of_sameLetters same (alone two)]

theorem dot_mem_congr (same : SameLetters s t) :
    ('.' : CodeUnit) ∈ s ↔ ('.' : CodeUnit) ∈ t := by
  induction same with
  | nil => rfl
  | cons first later ih =>
      rw [List.mem_cons, List.mem_cons, ih, eq_comm, dot_iff first, eq_comm]

theorem dot_led_congr (same : SameLetters s t) :
    Text.startsWith s "." = Text.startsWith t "." := by
  have led : ∀ {us : Text}, Text.startsWith us "." = true ↔ us.head? = some ('.' : CodeUnit) := by
    intro us
    refine (startsWith_iff (u := '.')).trans ?_
    cases us <;> simp
  rw [Bool.eq_iff_iff, led, led]
  cases same with
  | nil => rfl
  | cons first later =>
      rw [List.head?_cons, List.head?_cons, Option.some.injEq, Option.some.injEq, dot_iff first]

theorem isEmpty_congr (same : SameLetters s t) : s.isEmpty = t.isEmpty := by
  cases same <;> rfl

theorem view_congr (same : SameLetters s t) (byPoints : Bool) :
    List.Forall₂ (fun p q => (Comparison.ignoringCase byPoints).same p q = true)
      ((Comparison.ignoringCase byPoints).view s) ((Comparison.ignoringCase byPoints).view t) := by
  cases byPoints with
  | true => exact same.points_fold.imp fun _ _ equal => beq_iff_eq.mpr equal
  | false =>
      simp only [Comparison.view, List.forall₂_map_left_iff, List.forall₂_map_right_iff]
      exact same.imp fun _ _ equal => beq_iff_eq.mpr equal

theorem shape_test_congr (same : SameLetters s t) (alternatives : List (List Piece))
    (byPoints guarded : Bool) :
    (Matcher.shape alternatives (.ignoringCase byPoints) guarded).test s =
      (Matcher.shape alternatives (.ignoringCase byPoints) guarded).test t := by
  have alike : ∀ pieces, matchesAll (.ignoringCase byPoints) pieces
      ((Comparison.ignoringCase byPoints).view s) = matchesAll (.ignoringCase byPoints) pieces
        ((Comparison.ignoringCase byPoints).view t) :=
    fun pieces => matchesAll_congr (view_congr same byPoints)
  cases alternatives with
  | nil => rfl
  | cons first others => simp only [Matcher.test, alike, isDots_congr same]

/-- A glob that ends in a star compiles to a matcher that does not tell apart texts with the same
letters. -/
theorem test_sameLetters (ends : EndsInStar g) {matcher : Matcher}
    (compiled : compileGlob g false = .ok matcher) (same : SameLetters s t) :
    matcher.test s = matcher.test t := by
  by_cases empty : g = []
  · subst empty
    cases compiled
    cases same <;> rfl
  by_cases short : g.length ≤ maxGlobLength
  swap
  · rw [compileGlob, if_pos (Nat.lt_of_not_le short)] at compiled
    cases compiled
  -- Without wildcards and letters it is compared as one text, whose units are alone in their classes.
  by_cases literal : (compilation g).wild = false ∧ Text.upper g = Text.lower g
  · obtain ⟨es, reads⟩ := exists_reads g
    have tame := tame_of_compilation reads literal.1
    rw [compileGlob_spoken empty short reads tame fun _ => literal.2] at compiled
    cases compiled
    rw [Bool.eq_iff_iff, Matcher.test, Matcher.test, beq_iff_eq, beq_iff_eq]
    exact eq_iff_of_sameLetters same fun u said w equal => UInt16.toNat_inj.mp
      (Text.alone_of_uncased literal.2 (said_mem reads said) (beq_iff_eq.mp equal).symm)
  · have shaped : (!(compilation g).wild && !(!false && Text.upper g != Text.lower g)) = false := by
      rw [Bool.eq_false_iff]
      intro both
      simp only [Bool.not_false, Bool.true_and, Bool.and_eq_true, Bool.not_eq_true',
        bne_eq_false_iff_eq] at both
      exact literal both
    rw [compileGlob_eq empty short, shaped, if_neg Bool.false_ne_true] at compiled
    split at compiled
    swap
    · cases compiled
    cases compiled
    rw [simpleMatcher?_eq ends empty]
    dsimp only
    split
    · simp only [Option.getD_some, Matcher.test, isEmpty_congr same, isDots_congr same]
    split
    · have contains : Text.contains s "." = Text.contains t "." := by
        rw [Bool.eq_iff_iff]
        exact contains_iff.trans ((dot_mem_congr same).trans contains_iff.symm)
      simp only [Option.getD_some, Matcher.test, contains, isDots_congr same]
    split
    · simp only [Option.getD_some, Matcher.test, dot_led_congr same, isDots_congr same]
    · exact shape_test_congr same _ _ _

theorem sameLetters_slashed (same : SameLetters s t) : SameLetters (s.map slash) (t.map slash) := by
  rw [SameLetters, List.forall₂_map_left_iff, List.forall₂_map_right_iff]
  refine same.imp fun u w equal => ?_
  have slashes : u = '/' ↔ w = '/' := sign_iff (not_not_intro (by decide)) (by decide) equal
  by_cases isSlash : u = '/'
  · rw [isSlash, slashes.mp isSlash]
  · rwa [slash_of_ne isSlash, slash_of_ne fun other => isSlash (slashes.mpr other)]

/-- A word starts one of two texts with the same letters if it starts the other. -/
theorem begins_congr (same : SameLetters (s.map slash) (t.map slash)) (word : Text) :
    begins word s = begins word t := by
  cases compiled : Pattern.compile (word ++ "*") with
  | error error => rw [begins, begins, compiled]
  | ok pattern =>
      obtain ⟨made, tests⟩ := compile_iff compiled
      rw [begins, begins, compiled]
      dsimp only
      rw [tests, tests]
      exact test_sameLetters (toGlob_endsInStar (word_star_ends word)).1 made same

end Matchers

end TabCompletion.Wildcard
