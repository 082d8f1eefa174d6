import Mathlib.Data.List.Infix
import TabCompletion.Proofs.Evaluation.Coverage

/-!
Expandable strings. The value of a string is made by replacing the source text of each nested
expression by its value, one after the other and everywhere in the string. While each source text is
found only in the places of its own, this fills every place by its value and leaves the rest alone.
-/

namespace TabCompletion.Evaluation

/-! Strings with places. -/

/-- The place of a nested expression in a string: its source text, the text of its value, and what is
written behind it up to the next place. -/
structure Gap where
  source : Text
  value : Text
  tail : Text

def Gap.key (gap : Gap) : Text × Text := (gap.source, gap.value)

def gapsOf : List Node → List Value → List Text → List Gap
  | node :: nodes, value :: values, tail :: tails =>
      ⟨node.text, value.format, tail⟩ :: gapsOf nodes values tails
  | _, _, _ => []

/-- A string that shows a text in each place. -/
def laidOut (text : Gap → Text) : Text → List Gap → Text
  | lead, [] => lead
  | lead, gap :: rest => lead ++ text gap ++ laidOut text gap.tail rest

/-- A string as it is while it is filled: the places of `done` show their values. -/
def shown (done : List (Text × Text)) (gap : Gap) : Text :=
  if gap.key ∈ done then gap.value else gap.source

/-- What stands between those places that `own` selects. -/
def between (own : Gap → Bool) (text : Gap → Text) : Text → List Gap → List Text
  | lead, [] => [lead]
  | lead, gap :: rest =>
      if own gap then lead :: between own text gap.tail rest
      else between own text (lead ++ text gap ++ gap.tail) rest

/-- Where a text stands between pieces, it is found there only: not in the last piece, and behind the
start of another piece not before the end of it. -/
def Apart (needle : Text) : List Text → Prop
  | [] => True
  | [last] => ¬needle <:+: last
  | piece :: next :: rest => ¬needle <:+: piece ++ needle.dropLast ∧ Apart needle (next :: rest)

/-- When its turn comes, after the places of `earlier`, the source text of a place is found in the
string only where it is to be replaced by the same value. -/
def Gap.IsLone (lead : Text) (gaps earlier : List Gap) (gap : Gap) : Prop :=
  let done := earlier.map Gap.key
  Apart gap.source (between (fun g => g.key == gap.key && !done.contains g.key) (shown done) lead gaps)

/-- Every place is alone with its likes when its turn comes. -/
def Settled (lead : Text) (gaps : List Gap) : Prop :=
  ∀ i (inside : i < gaps.length), gaps[i].IsLone lead gaps (gaps.take i)

/-! Replacing. -/

section Replacing

variable {needle replacement : Text}

theorem replaceFrom_skip (covered rest : Text) :
    replaceFrom needle replacement covered.length (covered ++ rest) =
      replaceFrom needle replacement 0 rest := by
  induction covered with
  | nil => rfl
  | cons u more ih => exact ih

theorem replaceFrom_found (nonempty : needle ≠ []) (rest : Text) :
    replaceFrom needle replacement 0 (needle ++ rest) =
      replacement ++ replaceFrom needle replacement 0 rest := by
  cases needle with
  | nil => exact absurd rfl nonempty
  | cons u more =>
      have isPrefix : (u :: more).isPrefixOf (u :: (more ++ rest)) = true :=
        List.isPrefixOf_iff_prefix.mpr (List.prefix_append (u :: more) rest)
      rw [List.cons_append, replaceFrom, if_pos isPrefix]
      congr 1
      exact replaceFrom_skip more rest

theorem replaceFrom_none (t : Text) (absent : ¬needle <:+: t) :
    replaceFrom needle replacement 0 t = t := by
  induction t with
  | nil => rfl
  | cons u more ih =>
      have notHere : ¬needle.isPrefixOf (u :: more) = true := by
        intro found
        exact absent (List.isPrefixOf_iff_prefix.mp found).isInfix
      have notLater : ¬needle <:+: more := by
        intro found
        exact absent (List.infix_cons found)
      rw [replaceFrom, if_neg notHere, ih notLater]

theorem replaceFrom_piece (piece rest : Text) (absent : ¬needle <:+: piece ++ needle.dropLast) :
    replaceFrom needle replacement 0 (piece ++ needle ++ rest) =
      piece ++ replacement ++ replaceFrom needle replacement 0 rest := by
  have nonempty : needle ≠ [] := by
    rintro rfl
    exact absent (List.nil_infix)
  induction piece with
  | nil => simpa using replaceFrom_found nonempty rest
  | cons u more ih =>
      have notHere : ¬needle.isPrefixOf (u :: (more ++ needle ++ rest)) = true := by
        intro found
        have here := List.isPrefixOf_iff_prefix.mp found
        -- A text found here would end before the text behind the piece does.
        have start : u :: more ++ needle.dropLast <+: u :: (more ++ needle ++ rest) := by
          simpa using (List.dropLast_prefix needle).trans (List.prefix_append needle rest)
        have size : needle.length ≤ (u :: more ++ needle.dropLast).length := by
          simp
          omega
        exact absent (List.prefix_of_prefix_length_le here start size).isInfix
      have notLater : ¬needle <:+: more ++ needle.dropLast := by
        intro found
        exact absent (List.infix_cons found)
      rw [List.cons_append, List.cons_append, replaceFrom, if_neg notHere, ih notLater]
      rfl

theorem replaceFrom_join (pieces : List Text) (apart : Apart needle pieces) :
    replaceFrom needle replacement 0 (Text.join needle pieces) = Text.join replacement pieces := by
  induction pieces with
  | nil => rfl
  | cons piece rest ih =>
      cases rest with
      | nil => simpa [Text.join] using replaceFrom_none piece apart
      | cons next more =>
          have here : replaceFrom needle replacement 0
              (piece ++ needle ++ Text.join needle (next :: more)) =
                piece ++ replacement ++ Text.join replacement (next :: more) := by
            rw [replaceFrom_piece piece _ apart.1, ih apart.2]
          simpa [Text.join] using here

/-- The empty text is found everywhere. -/
theorem needle_ne_nil {pieces : List Text} (nonempty : pieces ≠ []) (apart : Apart needle pieces) :
    needle ≠ [] := by
  rintro rfl
  cases pieces with
  | nil => exact nonempty rfl
  | cons piece rest =>
      cases rest with
      | nil => exact apart List.nil_infix
      | cons next more => exact apart.1 List.nil_infix

theorem replaceAll_join {pieces : List Text} (nonempty : pieces ≠ []) (apart : Apart needle pieces) :
    replaceAll needle replacement (Text.join needle pieces) = Text.join replacement pieces := by
  have filled := needle_ne_nil nonempty apart
  rw [replaceAll, if_neg (by simpa using filled), replaceFrom_join pieces apart]

end Replacing

/-! One place after the other. -/

section Filling

theorem laidOut_congr {text text' : Gap → Text} (lead : Text) (gaps : List Gap)
    (same : ∀ gap ∈ gaps, text gap = text' gap) : laidOut text lead gaps = laidOut text' lead gaps := by
  induction gaps generalizing lead with
  | nil => rfl
  | cons gap rest ih =>
      have sameRest := ih gap.tail fun g later => same g (List.mem_cons_of_mem gap later)
      rw [laidOut, laidOut, same gap List.mem_cons_self, sameRest]

theorem between_ne_nil (own : Gap → Bool) (text : Gap → Text) (lead : Text) (gaps : List Gap) :
    between own text lead gaps ≠ [] := by
  induction gaps generalizing lead with
  | nil => exact List.cons_ne_nil lead []
  | cons gap rest ih =>
      rw [between]
      split
      · exact List.cons_ne_nil _ _
      · exact ih _

theorem laidOut_lead (text : Gap → Text) (front lead : Text) (gaps : List Gap) :
    laidOut text (front ++ lead) gaps = front ++ laidOut text lead gaps := by
  cases gaps <;> simp [laidOut]

/-- The pieces of a string, joined by what its own places show, are the string. -/
theorem join_between (own : Gap → Bool) (text : Gap → Text) (inserted lead : Text) (gaps : List Gap) :
    Text.join inserted (between own text lead gaps) =
      laidOut (fun gap => if own gap then inserted else text gap) lead gaps := by
  induction gaps generalizing lead with
  | nil => simp [between, laidOut, Text.join]
  | cons gap rest ih =>
      rw [between, laidOut]
      split
      · rw [← ih]
        cases pieces : between own text gap.tail rest with
        | nil => exact absurd pieces (between_ne_nil own text gap.tail rest)
        | cons piece more => simp [Text.join]
      · rw [ih, laidOut_lead]

/-- One turn: the places with this source and value, and only they, come to show the value. -/
theorem replaceAll_shown {lead : Text} {gaps earlier : List Gap} {gap : Gap}
    (lone : gap.IsLone lead gaps earlier) :
    replaceAll gap.source gap.value (laidOut (shown (earlier.map Gap.key)) lead gaps) =
      laidOut (shown ((earlier ++ [gap]).map Gap.key)) lead gaps := by
  let own : Gap → Bool := fun g => g.key == gap.key && !(earlier.map Gap.key).contains g.key
  have own_iff : ∀ g, own g = true ↔ g.key = gap.key ∧ g.key ∉ earlier.map Gap.key := by
    simp [own]
  have before : laidOut (shown (earlier.map Gap.key)) lead gaps =
      laidOut (fun g => if own g then gap.source else shown (earlier.map Gap.key) g) lead gaps := by
    apply laidOut_congr
    intro g _
    by_cases isOwn : own g = true
    · obtain ⟨same, isOpen⟩ := (own_iff g).mp isOwn
      rw [if_pos isOwn, shown, if_neg isOpen]
      exact congrArg Prod.fst same
    · rw [if_neg isOwn]
  have after : laidOut (fun g => if own g then gap.value else shown (earlier.map Gap.key) g) lead gaps =
      laidOut (shown ((earlier ++ [gap]).map Gap.key)) lead gaps := by
    apply laidOut_congr
    intro g _
    simp only [shown, List.map_append, List.map_singleton, List.mem_append, List.mem_singleton]
    by_cases isDone : g.key ∈ earlier.map Gap.key
    · rw [if_neg fun isOwn => ((own_iff g).mp isOwn).2 isDone, if_pos isDone, if_pos (Or.inl isDone)]
    · by_cases same : g.key = gap.key
      · rw [if_pos ((own_iff g).mpr ⟨same, isDone⟩), if_pos (Or.inr same)]
        exact (congrArg Prod.snd same).symm
      · rw [if_neg fun isOwn => same ((own_iff g).mp isOwn).1, if_neg isDone,
          if_neg (by simp [isDone, same])]
  rw [before, ← join_between own, replaceAll_join (between_ne_nil own _ lead gaps) lone,
    join_between, after]

/-- All turns from a place on. -/
theorem replaced_in_turn (lead : Text) (gaps earlier later : List Gap) (split : gaps = earlier ++ later)
    (settled : Settled lead gaps) :
    later.foldl (fun t gap => replaceAll gap.source gap.value t)
        (laidOut (shown (earlier.map Gap.key)) lead gaps) =
      laidOut (shown (gaps.map Gap.key)) lead gaps := by
  induction later generalizing earlier with
  | nil => simp [split]
  | cons gap rest ih =>
      have turn : gap.IsLone lead gaps earlier := by
        have inside : earlier.length < gaps.length := by simp [split]
        simpa [split] using settled earlier.length inside
      rw [List.foldl_cons, replaceAll_shown turn]
      exact ih (earlier ++ [gap]) (by simp [split])

theorem fillIn_gaps (text : Text) (nested : List Node) (values : List Value) (tails : List Text)
    (valued : values.length = nested.length) (sized : tails.length = nested.length) :
    fillIn text nested values =
      (gapsOf nested values tails).foldl (fun t gap => replaceAll gap.source gap.value t) text := by
  rw [fillIn]
  induction nested generalizing text values tails with
  | nil => rfl
  | cons node rest ih =>
      cases values with
      | nil => cases valued
      | cons value values =>
          cases tails with
          | nil => cases sized
          | cons tail tails =>
              exact ih _ values tails (Nat.succ.inj valued) (Nat.succ.inj sized)

theorem fillIn_laidOut (lead : Text) {nested : List Node} {values : List Value} {tails : List Text}
    (valued : values.length = nested.length) (sized : tails.length = nested.length)
    (settled : Settled lead (gapsOf nested values tails)) :
    fillIn (laidOut Gap.source lead (gapsOf nested values tails)) nested values =
      laidOut Gap.value lead (gapsOf nested values tails) := by
  have starts : laidOut Gap.source lead (gapsOf nested values tails) =
      laidOut (shown []) lead (gapsOf nested values tails) :=
    laidOut_congr lead _ fun gap _ => by simp [shown]
  have ends : laidOut (shown ((gapsOf nested values tails).map Gap.key)) lead
      (gapsOf nested values tails) = laidOut Gap.value lead (gapsOf nested values tails) :=
    laidOut_congr lead _ fun gap listed => if_pos (List.mem_map_of_mem listed)
  have turns := replaced_in_turn lead _ [] (gapsOf nested values tails) rfl settled
  rw [fillIn_gaps _ nested values tails valued sized, starts]
  exact turns.trans ends

end Filling

/-- Expandable strings are filled in place. A string whose value consists of literal pieces with the
source texts of its nested expressions between them has for its value the same pieces with the values
of the expressions between them, whenever those have values and each source text is found only in
places of its own when its turn comes. -/
theorem expandable_string_filled_in_place (scope : Variables) (n : Node) (lead : Text)
    (style : StringStyle) (nested : List Node) (values : List Value) (tails : List Text)
    (first last : Nat) (sized : tails.length = nested.length)
    (isString : n.form =
      .expandableString (laidOut Gap.source lead (gapsOf nested values tails)) style nested)
    (evaluated : (evaluateAll scope nested).run first = .ok (values, last))
    (settled : Settled lead (gapsOf nested values tails)) :
    (evaluate scope n).run first =
      .ok (.text (laidOut Gap.value lead (gapsOf nested values tails)), last) := by
  have valued : values.length = nested.length := evaluateAll_length evaluated
  have spelled := fillIn_laidOut lead valued sized settled
  obtain ⟨id, extent, form⟩ := n
  cases isString
  rw [evaluate, fill_eq, StateT.run_bind, evaluated]
  exact congrArg (fun t => Except.ok (Value.text t, last)) spelled

/-! Strings of two variables. -/

section Strings

instance decidableApart (needle : Text) : (pieces : List Text) → Decidable (Apart needle pieces)
  | [] => inferInstanceAs (Decidable True)
  | [last] => inferInstanceAs (Decidable ¬needle <:+: last)
  | _ :: next :: rest =>
      have := decidableApart needle (next :: rest)
      inferInstanceAs (Decidable (_ ∧ Apart needle (next :: rest)))

instance (lead : Text) (gaps : List Gap) : Decidable (Settled lead gaps) :=
  inferInstanceAs (Decidable (∀ i (_ : i < gaps.length), Apart _ _))

/-- A session with two variables. -/
def reading (a other : Text) : Variables :=
  some fun path => .text (if path = Text.ofString "a" then a else other)

def variableAt (start stop : Nat) (path : Text) : Node :=
  .new ⟨start, stop, "$" ++ path⟩ (.variable path false)

def quoted (value : Text) (nested : List Node) : Node :=
  .new ⟨0, value.length + 2, "\"" ++ value ++ "\""⟩ (.expandableString value .doubleQuoted nested)

/-- The string `$a$b/$a`, in which values look like parts of names. -/
theorem values_like_names_filled :
    (evaluate (reading "b" "$") (quoted "$a$b/$a"
      [variableAt 1 3 "a", variableAt 3 5 "b", variableAt 6 8 "a"])).run 0 =
      .ok (.text "b$/b", 0) := by
  have settled : Settled [] (gapsOf
      [variableAt 1 3 "a", variableAt 3 5 "b", variableAt 6 8 "a"]
      [.text "b", .text "$", .text "b"] [[], "/", []]) := by decide +kernel
  exact expandable_string_filled_in_place (reading "b" "$") (quoted "$a$b/$a" _) [] .doubleQuoted _
    [.text "b", .text "$", .text "b"] [[], "/", []] 0 0 rfl rfl rfl settled

/-- The nested expressions have values, and yet the string is not filled in place by them. -/
def Misfilled (scope : Variables) (lead : Text) (nested : List Node) (values : List Value)
    (tails : List Text) : Prop :=
  let gaps := gapsOf nested values tails
  (evaluateAll scope nested).run 0 = .ok (values, 0) ∧ tails.length = nested.length ∧
    ∃ t, (evaluate scope (quoted (laidOut Gap.source lead gaps) nested)).run 0 = .ok (.text t, 0) ∧
      t ≠ laidOut Gap.value lead gaps

/-- A name is replaced in a longer name, in the value of another expression, and in a literal piece
that looks like it. -/
theorem names_replaced_elsewhere :
    Misfilled (reading "1" "2") [] [variableAt 1 3 "a", variableAt 3 6 "ab"]
      [.text "1", .text "2"] [[], []] ∧
    Misfilled (reading "$b" "2") [] [variableAt 1 3 "a", variableAt 3 5 "b"]
      [.text "$b", .text "2"] [[], []] ∧
    Misfilled (reading "1" "2") "$a" [variableAt 4 6 "a"] [.text "1"] [[]] :=
  ⟨⟨rfl, rfl, "11b", rfl, by decide⟩, ⟨rfl, rfl, "22", rfl, by decide⟩,
    ⟨rfl, rfl, "11", rfl, by decide⟩⟩

end Strings

end TabCompletion.Evaluation
