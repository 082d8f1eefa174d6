import TabCompletion.Proofs.Engine.Run

/-!
Two runs side by side. The same computation, or two that correspond, runs in two worlds from two
states; the runs are alike if they give related answers and leave related states, or fail with the
same failure. A failure of the right-hand run may be excused, and then nothing is said.
-/

namespace TabCompletion

/-- A relation between the states of two engines. -/
abbrev StateRelation := EngineState → EngineState → Prop

/-- Two worlds, the correspondence of the sessions in them, the failures that are excused, and what
holds of the states that two runs leave with one failure. -/
structure Pairing where
  left : World
  right : World
  sessions : Option Session → Option Session → Prop
  excused : Failure → Prop
  failed : Failure → StateRelation

/-- How two runs that are alike end. -/
inductive Ends {α β : Type} (p : Pairing) (after : StateRelation) (related : α → β → Prop) :
    Except Failure α × EngineState → Except Failure β × EngineState → Prop where
  | answered {x : α} {y : β} {s t : EngineState} : related x y → after s t →
      Ends p after related (.ok x, s) (.ok y, t)
  | failed {failure : Failure} {s t : EngineState} : p.failed failure s t →
      Ends p after related (.error failure, s) (.error failure, t)
  | excused {ended : Except Failure α × EngineState} {failure : Failure} {t : EngineState} :
      p.excused failure → Ends p after related ended (.error failure, t)

/-- From states with `before`, two computations give related answers and leave states with
`after`. -/
def Alike {α β : Type} (p : Pairing) (before after : StateRelation) (related : α → β → Prop)
    (a : Engine α) (b : Engine β) : Prop :=
  ∀ s t, before s t → Ends p after related (Engine.run p.left s a) (Engine.run p.right t b)

/-- Two computations give equal answers and keep a relation. -/
def Agree {α : Type} (p : Pairing) (kept : StateRelation) (a b : Engine α) : Prop :=
  Alike p kept kept Eq a b

variable {α β γ δ : Type} {p : Pairing} {before between after kept : StateRelation}
  {related : α → β → Prop}

theorem alike_pure {x : α} {y : β} (answers : related x y)
    (states : ∀ s t, before s t → after s t) :
    Alike p before after related (pure x) (pure y) := by
  intro s t start
  exact .answered answers (states s t start)

theorem alike_throw {failure : Failure} (states : ∀ s t, before s t → p.failed failure s t) :
    Alike p before after related (throw failure) (throw failure) := by
  intro s t start
  exact .failed (states s t start)

theorem alike_bind (between : StateRelation) {links : γ → δ → Prop} {a : Engine γ} {b : Engine δ}
    {f : γ → Engine α} {g : δ → Engine β} (first : Alike p before between links a b)
    (next : ∀ x y, links x y → Alike p between after related (f x) (g y)) :
    Alike p before after related (a >>= f) (b >>= g) := by
  intro s t start
  rw [Engine.run_bind, Engine.run_bind]
  have half := first s t start
  generalize Engine.run p.left s a = leftRun at half
  generalize Engine.run p.right t b = rightRun at half
  cases half with
  | answered linked states => exact next _ _ linked _ _ states
  | failed states => exact .failed states
  | excused isExcused => exact .excused isExcused

theorem alike_mono {starts ends : StateRelation} {a : Engine α} {b : Engine β}
    (alike : Alike p before after related a b) (weaker : ∀ s t, starts s t → before s t)
    (stronger : ∀ s t, after s t → ends s t) : Alike p starts ends related a b := by
  intro s t start
  have ended := alike s t (weaker s t start)
  generalize Engine.run p.left s a = leftRun at ended
  generalize Engine.run p.right t b = rightRun at ended
  cases ended with
  | answered answers states => exact .answered answers (stronger _ _ states)
  | failed states => exact .failed states
  | excused isExcused => exact .excused isExcused

/-- Each side reads its own world. -/
theorem alike_read {f : World → Engine α} {g : World → Engine β}
    (next : Alike p before after related (f p.left) (g p.right)) :
    Alike p before after related (read >>= f) (read >>= g) := by
  intro s t start
  exact next s t start

/-- Each side reads its own state. -/
theorem alike_get {f : EngineState → Engine α} {g : EngineState → Engine β}
    (next : ∀ s t, before s t →
      Alike p (fun s' t' => s' = s ∧ t' = t) after related (f s) (g t)) :
    Alike p before after related (get >>= f) (get >>= g) := by
  intro s t start
  exact next s t start s t ⟨rfl, rfl⟩

/-- States that are fixed may be forgotten. -/
theorem alike_from {s t : EngineState} {a : Engine α} {b : Engine β} (start : before s t)
    (alike : Alike p before after related a b) :
    Alike p (fun s' t' => s' = s ∧ t' = t) after related a b :=
  alike_mono alike (fun _ _ same => same.1 ▸ same.2 ▸ start) fun _ _ states => states

theorem alike_modify {f g : EngineState → EngineState} {related : PUnit → PUnit → Prop}
    (answers : related ⟨⟩ ⟨⟩) (states : ∀ s t, before s t → after (f s) (g t)) :
    Alike p before after related (modify f) (modify g) := by
  intro s t start
  exact .answered answers (states s t start)

/-- Each side changes its own state. -/
theorem alike_update (between : StateRelation) {f g : EngineState → EngineState} {a : Engine α}
    {b : Engine β} (states : ∀ s t, before s t → between (f s) (g t))
    (next : Alike p between after related a b) :
    Alike p before after related (do modify f; a) (do modify g; b) := by
  intro s t start
  exact next _ _ (states s t start)

theorem alike_ite {condition : Prop} [Decidable condition] {a a' : Engine α} {b b' : Engine β}
    (holds : condition → Alike p before after related a b)
    (fails : ¬condition → Alike p before after related a' b') :
    Alike p before after related (if condition then a else a') (if condition then b else b') := by
  split
  · exact holds ‹_›
  · exact fails ‹_›

/-! Equal answers. -/

theorem agree_pure (x : α) : Agree p kept (pure x) (pure x) := alike_pure rfl fun _ _ states => states

theorem agree_bind {a b : Engine γ} {f g : γ → Engine α} (first : Agree p kept a b)
    (next : ∀ x, Agree p kept (f x) (g x)) : Agree p kept (a >>= f) (b >>= g) := by
  refine alike_bind kept first ?_
  rintro x y rfl
  exact next x

/-- The first part keeps the relation and the rest may leave it. -/
theorem alike_after {a b : Engine γ} {f : γ → Engine α} {g : γ → Engine β}
    (first : Agree p before a b) (next : ∀ x, Alike p before after related (f x) (g x)) :
    Alike p before after related (a >>= f) (b >>= g) := by
  refine alike_bind before first ?_
  rintro x y rfl
  exact next x

theorem agree_map {a b : Engine γ} (f : γ → α) (first : Agree p kept a b) :
    Agree p kept (do return f (← a)) (do return f (← b)) :=
  agree_bind first fun x => agree_pure (f x)

theorem agree_ofExcept {answer : Except Failure α}
    (states : ∀ failure, answer = .error failure → ∀ s t, kept s t → p.failed failure s t) :
    Agree p kept (Engine.ofExcept answer) (Engine.ofExcept answer) := by
  cases answer with
  | ok value => exact agree_pure value
  | error failure => exact alike_throw (states failure rfl)

end TabCompletion
