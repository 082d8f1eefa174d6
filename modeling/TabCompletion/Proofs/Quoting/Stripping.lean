import TabCompletion.Proofs.Quoting.Reading

/-!
Taking quotes away. Stripping removes the quotes around a text and nothing of what was escaped
inside; undoing the quotes gives back the text that was written in them. The two agree where nothing
had to be escaped.
-/

namespace TabCompletion.Quoting

/-- Each pair of equal single quotes collapsed into one. -/
def undouble : Text → Text
  | u :: v :: rest =>
      if isSingleQuote u && u == v then u :: undouble rest else u :: undouble (v :: rest)
  | t => t

/-- Each backtick removed, and what it escapes kept. -/
def unescape : Text → Text
  | u :: v :: rest => if u == '\x60' then v :: unescape rest else u :: unescape (v :: rest)
  | t => t

/-- What a text stands for: without its quotes, and without the escapes that they need. -/
def unquoted (t : Text) : Text :=
  match strip t with
  | (.none, bare) => bare
  | (.single, inside) => undouble inside
  | (.double, inside) => unescape inside

/-! Undoing escapes. -/

section Undoing

variable {u : CodeUnit}

theorem undouble_other (isOther : isSingleQuote u = false) (rest : Text) :
    undouble (u :: rest) = u :: undouble rest := by
  cases rest with
  | nil => rfl
  | cons v more => rw [undouble, isOther, Bool.false_and, if_neg Bool.false_ne_true]

theorem undouble_escapeSingle (t : Text) : undouble (escapeSingle t) = t := by
  induction t with
  | nil => rfl
  | cons u rest ih =>
      have split : escapeSingle (u :: rest) =
          (if isSingleQuote u then [u, u] else [u]) ++ escapeSingle rest := List.flatMap_cons
      rw [split]
      cases isQuote : isSingleQuote u with
      | true =>
          change undouble (u :: u :: escapeSingle rest) = _
          rw [undouble, isQuote, beq_self_eq_true, Bool.and_self, if_pos rfl, ih]
      | false => exact (undouble_other isQuote _).trans (congrArg _ ih)

theorem unescape_other (isOther : (u == '\x60') = false) (rest : Text) :
    unescape (u :: rest) = u :: unescape rest := by
  cases rest with
  | nil => rfl
  | cons v more => rw [unescape, isOther, if_neg Bool.false_ne_true]

theorem unescape_escapeDouble (t : Text) : unescape (escapeDouble t) = t := by
  induction t with
  | nil => rfl
  | cons u rest ih =>
      have split : escapeDouble (u :: rest) =
          (if u == '\x60' || u == '$' || isDoubleQuote u then ([('\x60' : CodeUnit), u] : Text)
            else [u]) ++ escapeDouble rest := List.flatMap_cons
      rw [split]
      cases escaped : u == '\x60' || u == '$' || isDoubleQuote u with
      | true => exact congrArg (u :: ·) ih
      | false =>
          simp only [Bool.or_eq_false_iff] at escaped
          exact (unescape_other escaped.1.1 _).trans (congrArg _ ih)

end Undoing

/-! Stripping what was written. -/

section Stripping

variable {t : Text}

/-- What stands between the quotes of a text that is written in them. -/
def Quote.inside (q : Quote) (t : Text) : Text :=
  match q with
  | .none => t
  | .single => escapeSingle t
  | .double => escapeDouble t

theorem wrap_eq (q : Quote) (t : Text) : q.wrap t = q.text ++ q.inside t ++ q.text := by
  cases q with
  | none => exact (List.append_nil t).symm
  | single | double => rfl

theorem strip_between {q : Quote} (quoted : q ≠ .none) (inside : Text) :
    strip (q.text ++ inside ++ q.text) = (q, inside) := by
  cases q with
  | none => exact absurd rfl quoted
  | single | double =>
      all_goals
        simp [strip, Quote.text, opening, Text.ofString, Text.unitsOfPoint, isSingleQuote, isDoubleQuote,
          Quote.holds]

theorem opening_of_not_needed {bracketsEscaped : Bool} (bare : needed t bracketsEscaped = false) :
    opening t = .none := by
  cases t with
  | nil => rfl
  | cons u rest =>
      simp only [needed, Bool.or_eq_false_iff, List.any_eq_false] at bare
      have ordinary := bare.1.2 u List.mem_cons_self
      have notSingle : isSingleQuote u = false :=
        Bool.eq_false_iff.mpr fun isQuote => ordinary (isSpecial_of_quote (Or.inl isQuote))
      have notDouble : isDoubleQuote u = false :=
        Bool.eq_false_iff.mpr fun isQuote => ordinary (isSpecial_of_quote (Or.inr isQuote))
      rw [opening, notSingle, notDouble]
      rfl

theorem strip_of_unopened (unopened : opening t = .none) : strip t = (.none, t) := by
  rw [strip, unopened]

theorem mem_of_mem_strip {u : CodeUnit} (listed : u ∈ (strip t).2) : u ∈ t := by
  rw [strip] at listed
  split at listed
  · exact listed
  · dsimp only at listed
    split at listed
    · split at listed
      · exact List.mem_of_mem_drop ((List.dropLast_sublist _).subset listed)
      · exact List.mem_of_mem_drop listed
    · exact List.mem_of_mem_drop listed

theorem unquoted_wrap {q : Quote} (quoted : q ≠ .none) (t : Text) : unquoted (q.wrap t) = t := by
  rw [unquoted, wrap_eq, strip_between quoted]
  cases q with
  | none => exact absurd rfl quoted
  | single => exact undouble_escapeSingle t
  | double => exact unescape_escapeDouble t

end Stripping

/-! Texts without escapes. -/

section Unescaped

variable {q : Quote} {t : Text}

/-- Nothing in a text is escaped: without its quotes it is what it stands for, and it has no brackets. -/
structure Unescaped (t : Text) : Prop where
  inside : (strip t).2 = unquoted t
  bracketless : ∀ u ∈ t, isBracket u = false

theorem mem_inside {u : CodeUnit} (listed : u ∈ t) : u ∈ q.inside t := by
  cases q with
  | none => exact listed
  | single =>
      refine List.mem_flatMap.mpr ⟨u, listed, ?_⟩
      split <;> exact List.mem_cons_self
  | double =>
      refine List.mem_flatMap.mpr ⟨u, listed, ?_⟩
      split
      · exact List.mem_cons_of_mem _ List.mem_cons_self
      · exact List.mem_cons_self

theorem escapeBrackets_bracketless (bracketless : ∀ u ∈ escapeBrackets t, isBracket u = false) :
    escapeBrackets t = t := by
  induction t with
  | nil => rfl
  | cons u rest ih =>
      have split : escapeBrackets (u :: rest) =
          (if isBracket u then ([('\x60' : CodeUnit), u] : Text) else [u]) ++ escapeBrackets rest :=
        List.flatMap_cons
      rw [split] at bracketless ⊢
      cases isOther : isBracket u with
      | true =>
          rw [isOther] at bracketless
          have absurdly := bracketless u (by simp)
          rw [isOther] at absurdly
          cases absurdly
      | false =>
          have later := ih fun v listed => bracketless v (List.mem_append_right _ listed)
          rw [later]
          rfl

theorem inside_of_unescaped (quoted : q ≠ .none) (unescaped : Unescaped (q.wrap t)) : q.inside t = t := by
  have plain := unescaped.inside
  rwa [unquoted_wrap quoted, wrap_eq, strip_between quoted] at plain

end Unescaped

end TabCompletion.Quoting
