import TabCompletion.Completion.Command

/-!
Quoted texts as the shell reads them. What is written in quotes reads back as what it stands for,
closes at its last character and holds no live dollar; what is written bare holds nothing that the
shell takes for syntax. A value and a command name are written so.
-/

namespace TabCompletion.Quoting

/-- What the shell reads from behind an opening quote: the content, whether a dollar in it is live,
and what follows the quote that closes it. -/
structure Reading where
  content : Text
  live : Bool
  rest : Text
  deriving DecidableEq

def Reading.add (u : CodeUnit) (live : Bool) (r : Reading) : Reading :=
  { r with content := u :: r.content, live := live || r.live }

/-- Reads in single quotes: two quotes in a row stand for the second, and one alone closes. -/
def readSingle : Text → Option Reading
  | [] => none
  | [u] => if isSingleQuote u then some ⟨[], false, []⟩ else none
  | u :: v :: rest =>
      if isSingleQuote u then
        if isSingleQuote v then (readSingle rest).map (.add v false)
        else some ⟨[], false, v :: rest⟩
      else (readSingle (v :: rest)).map (.add u false)

/-- Reads in double quotes: a backtick makes the next unit literal, and a quote closes. -/
def readDouble : Text → Option Reading
  | [] => none
  | [u] => if isDoubleQuote u then some ⟨[], false, []⟩ else none
  | u :: v :: rest =>
      if u == '\x60' then (readDouble rest).map (.add v false)
      else if isDoubleQuote u then some ⟨[], false, v :: rest⟩
      else (readDouble (v :: rest)).map (.add u (u == '$'))

/-- Reads a text that starts with a quote; absent when it does not, or when nothing closes it. -/
def read? (t : Text) : Option Reading :=
  match opening t with
  | .none => none
  | .single => readSingle (t.drop 1)
  | .double => readDouble (t.drop 1)

/-! Reading what was written. -/

section Written

variable {u : CodeUnit}

theorem readSingle_pair (isQuote : isSingleQuote u = true) (rest : Text) :
    readSingle (u :: u :: rest) = (readSingle rest).map (.add u false) := by
  rw [readSingle, if_pos isQuote, if_pos isQuote]

theorem readSingle_other (isOther : isSingleQuote u = false) (rest : Text) :
    readSingle (u :: rest) = (readSingle rest).map (.add u false) := by
  cases rest with
  | nil => simp [readSingle, isOther]
  | cons v more => simp [readSingle, isOther]

theorem readSingle_escapeSingle (t : Text) : readSingle (escapeSingle t ++ "'") = some ⟨t, false, []⟩ := by
  induction t with
  | nil => rfl
  | cons u rest ih =>
      have split : escapeSingle (u :: rest) =
          (if isSingleQuote u then [u, u] else [u]) ++ escapeSingle rest := List.flatMap_cons
      rw [split, List.append_assoc]
      cases isQuote : isSingleQuote u with
      | true => exact (readSingle_pair isQuote _).trans (congrArg _ ih)
      | false => exact (readSingle_other isQuote _).trans (congrArg _ ih)

theorem readDouble_escaped (v : CodeUnit) (rest : Text) :
    readDouble ('\x60' :: v :: rest) = (readDouble rest).map (.add v false) := by
  rw [readDouble, if_pos (beq_self_eq_true _)]

theorem readDouble_other (isOther : (u == '\x60' || isDoubleQuote u) = false) (rest : Text) :
    readDouble (u :: rest) = (readDouble rest).map (.add u (u == '$')) := by
  rw [Bool.or_eq_false_iff] at isOther
  cases rest with
  | nil => simp [readDouble, isOther]
  | cons v more => simp only [readDouble, isOther, Bool.false_eq_true, if_false]

theorem readDouble_escapeDouble (t : Text) :
    readDouble (escapeDouble t ++ "\"") = some ⟨t, false, []⟩ := by
  induction t with
  | nil => rfl
  | cons u rest ih =>
      have split : escapeDouble (u :: rest) =
          (if u == '\x60' || u == '$' || isDoubleQuote u then ([('\x60' : CodeUnit), u] : Text)
            else [u]) ++ escapeDouble rest := List.flatMap_cons
      rw [split, List.append_assoc]
      cases escaped : u == '\x60' || u == '$' || isDoubleQuote u with
      | true => exact (readDouble_escaped u _).trans (congrArg _ ih)
      | false =>
          simp only [Bool.or_eq_false_iff] at escaped
          have isOther : (u == '\x60' || isDoubleQuote u) = false := by
            rw [escaped.1.1, escaped.2]
            rfl
          refine (readDouble_other isOther _).trans ((congrArg _ ih).trans ?_)
          rw [escaped.1.2]
          rfl

/-- What is written in quotes reads back as what it stands for, up to the end and without a live
dollar. -/
theorem read?_wrap {q : Quote} (quoted : q ≠ .none) (t : Text) :
    read? (q.wrap t) = some ⟨t, false, []⟩ := by
  cases q with
  | none => exact absurd rfl quoted
  | single => exact readSingle_escapeSingle t
  | double => exact readDouble_escapeDouble t

end Written

/-! Bare texts. -/

/-- A text in which the shell finds neither a quote nor any other syntax. -/
def IsBare (t : Text) : Prop :=
  t ≠ [] ∧ ∀ u ∈ t, Text.isSpace u = false ∧ isSingleQuote u = false ∧ isDoubleQuote u = false ∧
    u ∉ Text.ofString "\x60$()\x7b\x7d[];,|&@#<>"

/-- Every typographic quote is in the range that no bare argument may meet. -/
theorem isSpecial_of_quote {u : CodeUnit} (isQuote : isSingleQuote u = true ∨ isDoubleQuote u = true) :
    isSpecial u = true := by
  simp only [isSingleQuote, isDoubleQuote, Bool.or_eq_true, beq_iff_eq] at isQuote
  rcases isQuote with ((((rfl | rfl) | rfl) | rfl) | rfl) | ((rfl | rfl) | rfl) | rfl <;> rfl

theorem isBare_of_not_needed {t : Text} (bare : needed t = false) : IsBare t := by
  simp only [needed, Bool.or_eq_false_iff, Bool.not_false, Bool.true_and, List.any_eq_false] at bare
  obtain ⟨⟨filled, plain⟩, noBracket⟩ := bare
  refine ⟨List.isEmpty_eq_false_iff.mp filled, fun u listed => ?_⟩
  have ordinary := plain u listed
  refine ⟨?_, ?_, ?_, fun isSyntax => ?_⟩
  · rw [Bool.eq_false_iff]
    intro isSpace
    exact ordinary (by simp [isSpecial, isSpace])
  · exact Bool.eq_false_iff.mpr fun isQuote => ordinary (isSpecial_of_quote (Or.inl isQuote))
  · exact Bool.eq_false_iff.mpr fun isQuote => ordinary (isSpecial_of_quote (Or.inr isQuote))
  · have refused : (Text.ofString "\x60$()\x7b\x7d[];,|&@#<>").all
        (fun s => isSpecial s || isBracket s) = true := by decide
    have isRefused := List.all_eq_true.mp refused u isSyntax
    exact (Bool.or_eq_true_iff.mp isRefused).elim ordinary (noBracket u listed)

/-! Values and command names. -/

open Completion

/-- The text is the value written in quotes, which it opens and closes, or the bare value itself
when no quote is asked for or needed. -/
def Stands (t value : Text) (q : Quote) : Prop :=
  (q ≠ .none ∨ needed value = true → read? t = some ⟨value, false, []⟩) ∧
    (q = .none → needed value = false → t = value ∧ IsBare value)

theorem quoteValue_stands (value : Text) (q : Quote) : Stands (quoteValue value q) value q := by
  cases q with
  | single => exact ⟨fun _ => read?_wrap (q := .single) nofun value, nofun⟩
  | double => exact ⟨fun _ => read?_wrap (q := .double) nofun value, nofun⟩
  | none =>
      rw [quoteValue]
      cases bare : needed value with
      | true =>
          refine ⟨fun _ => read?_wrap (q := .single) nofun value, fun _ notNeeded => ?_⟩
          cases bare.symm.trans notNeeded
      | false =>
          refine ⟨fun isQuoted => ?_, fun _ _ => ⟨rfl, isBare_of_not_needed bare⟩⟩
          rcases isQuoted with opened | isNeeded
          · exact absurd rfl opened
          · rw [bare] at isNeeded
            cases isNeeded

/-- A command name is written as a value is, behind an ampersand where it needs one to be run. -/
theorem formatCommandName_eq (name : Text) (q : Quote) (addAmpersand : Bool) :
    ∃ lead : Text, formatCommandName name q addAmpersand = lead ++ quoteValue name q ∧
      (lead = [] ∨ addAmpersand = true ∧ q = .none ∧ lead = "& ") := by
  cases q with
  | single => exact ⟨[], rfl, Or.inl rfl⟩
  | double => exact ⟨[], rfl, Or.inl rfl⟩
  | none =>
      simp only [formatCommandName]
      split
      · rename_i called
        exact ⟨"& ", rfl, Or.inr ⟨(Bool.and_eq_true_iff.mp called).1, trivial, rfl⟩⟩
      · exact ⟨[], rfl, Or.inl rfl⟩

/-- Quoting survives reading: a value in its quotes reads back as itself and ends where its text
ends, and one that is written bare holds nothing that the shell would take for syntax. So does a
command name behind the ampersand that it was given. -/
theorem quoted_text_reads_back (value : Text) (q : Quote) (addAmpersand : Bool) :
    Stands (quoteValue value q) value q ∧
      ∃ lead t : Text, formatCommandName value q addAmpersand = lead ++ t ∧
        (lead = [] ∨ addAmpersand = true ∧ q = .none ∧ lead = "& ") ∧ Stands t value q := by
  obtain ⟨lead, split, added⟩ := formatCommandName_eq value q addAmpersand
  exact ⟨quoteValue_stands value q, lead, _, split, added, quoteValue_stands value q⟩

/-- A typographic quote in a value is doubled, so it does not close the value. -/
example : read? (quoteValue "it\u2019s" .none) = some ⟨"it\u2019s", false, []⟩ := by decide

end TabCompletion.Quoting
