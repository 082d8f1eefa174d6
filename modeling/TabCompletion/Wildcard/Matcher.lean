import TabCompletion.Wildcard.CharSet

/-!
Matching against a compiled glob. A shape is a list of pieces run against all suffixes of the text
at once: `accepts pieces points` is the row of answers for every suffix, longest first.
Simple patterns have matchers of their own.
-/

namespace TabCompletion.Wildcard

inductive Piece where
  | literal (point : Nat)
  | anyOne
  | anyMany
  | oneOf (set : CharSet)
  | never

def Piece.test (c : Comparison) (point : Nat) : Piece → Bool
  | .literal expected => c.same expected point
  | .anyOne => true
  | .anyMany => true
  | .oneOf set => set.test c point
  | .never => false

/-- From answers for the suffixes, whether some suffix of each suffix is accepted. -/
def someSuffix : List Bool → List Bool
  | [] => []
  | here :: later =>
      let row := someSuffix later
      (here || row.headD false) :: row

/-- For every suffix of `points`, longest first, whether the pieces match exactly that suffix. -/
def accepts (c : Comparison) : List Piece → List Nat → List Bool
  | [], points => points.map (fun _ => false) ++ [true]
  | .anyMany :: pieces, points => someSuffix (accepts c pieces points)
  | piece :: pieces, points =>
      points.zipWith (fun point ok => piece.test c point && ok) (accepts c pieces points).tail
        ++ [false]

def matchesAll (c : Comparison) (pieces : List Piece) (points : List Nat) : Bool :=
  (accepts c pieces points).headD false

/-- The two texts that no star, question mark or class stands for at the start of a pattern. -/
def isDots (t : Text) : Bool := t == Text.ofString "." || t == Text.ofString ".."

inductive Matcher where
  /-- Only the given text. -/
  | exactly (text : Text)
  /-- Every text but the empty one and the two dot texts. -/
  | anything
  /-- Every text with the given end. -/
  | ending (tail : Text) (ignoreCase : Bool)
  /-- Every text of the given length and end but the two dot texts. -/
  | sized (length : Nat) (tail : Text) (ignoreCase : Bool)
  /-- Every text that holds a dot but the two dot texts. -/
  | dotted
  /-- Every text that starts with a dot but the two dot texts. -/
  | dotLed
  /-- Alternatives in order; `guarded` keeps the first of them from matching the dot texts. -/
  | shape (alternatives : List (List Piece)) (comparison : Comparison) (guarded : Bool)

def hasEnd (t tail : Text) (ignoreCase : Bool) : Bool :=
  if ignoreCase then Text.endsWith (Text.lower t) (Text.lower tail) else Text.endsWith t tail

def Comparison.view (c : Comparison) (t : Text) : List Nat :=
  match c with
  | .exact true | .ignoringCase true => Text.points t
  | .exact false | .ignoringCase false => t.map (·.toNat)

def Matcher.test (m : Matcher) (t : Text) : Bool :=
  match m with
  | .exactly text => t == text
  | .anything => !t.isEmpty && !isDots t
  | .ending tail ignoreCase => hasEnd t tail ignoreCase
  | .sized length tail ignoreCase =>
      t.length == length && !isDots t && (tail.isEmpty || hasEnd t tail ignoreCase)
  | .dotted => !isDots t && Text.contains t "."
  | .dotLed => !isDots t && Text.startsWith t "."
  | .shape alternatives comparison guarded =>
      let points := comparison.view t
      match alternatives with
      | [] => false
      | first :: others =>
          (!(guarded && isDots t) && matchesAll comparison first points)
            || others.any fun pieces => matchesAll comparison pieces points

end TabCompletion.Wildcard
