import Mathlib.Data.List.Nodup
import TabCompletion.Proofs.Types.Filling

/-!
What the catalog of a registry holds: every accelerator, every visible type by its full and by its
short name, every namespace around such a type, and nothing else. A short name is shared by types of
different namespaces, which the catalog tells apart by the lower case of a longer text; there a
capital sigma can take the form it has at the end of a word.
-/

namespace TabCompletion.Catalog

/-! Leading parts of a dotted name. -/

section Leading

/-- All of a dotted name, or what precedes one of its dots. -/
def IsLeading (part dotted : Text) : Prop := part = dotted ∨ (part ++ "." : Text) <+: dotted

theorem splitOn_filled (separator : CodeUnit) (t : Text) :
    ∃ piece pieces, Text.splitOn separator t = piece :: pieces := by
  induction t with
  | nil => exact ⟨[], [], rfl⟩
  | cons u rest ih =>
      obtain ⟨piece, pieces, split⟩ := ih
      rw [Text.splitOn, split]
      dsimp only
      split
      · exact ⟨_, _, rfl⟩
      · exact ⟨_, _, rfl⟩

theorem leadingParts_eq {dotted piece : Text} {pieces : List Text}
    (split : Text.splitOn '.' dotted = piece :: pieces) :
    leadingParts dotted =
      (List.range (pieces.length + 1)).map fun i => Text.join "." (piece :: pieces.take i) := by
  rw [leadingParts, split]
  rfl

theorem join_cons_cons (separator first second : Text) (rest : List Text) :
    Text.join separator (first :: second :: rest) =
      first ++ separator ++ Text.join separator (second :: rest) := by
  simp [Text.join]

theorem join_cons_unit (separator piece : Text) (u : CodeUnit) (rest : List Text) :
    Text.join separator ((u :: piece) :: rest) = u :: Text.join separator (piece :: rest) := by
  cases rest with
  | nil => simp [Text.join]
  | cons second rest => simp [Text.join]

theorem leadingParts_cons (u : CodeUnit) (rest : Text) :
    leadingParts (u :: rest) =
      (if u = '.' then [[]] else []) ++ (leadingParts rest).map (u :: ·) := by
  obtain ⟨piece, pieces, split⟩ := splitOn_filled '.' rest
  have whole : Text.splitOn '.' (u :: rest) =
      if u == '.' then [] :: piece :: pieces else (u :: piece) :: pieces := by
    rw [Text.splitOn, split]
  rw [leadingParts_eq split, List.map_map]
  by_cases dot : u = '.'
  · rw [if_pos (beq_iff_eq.mpr dot)] at whole
    rw [leadingParts_eq whole, if_pos dot, List.length_cons, List.range_succ_eq_map, List.map_cons,
      List.map_map, dot]
    refine congrArg₂ List.cons (by simp [Text.join]) (List.map_congr_left fun i _ => ?_)
    exact join_cons_cons "." [] piece (pieces.take i)
  · rw [if_neg (fun same => dot (beq_iff_eq.mp same))] at whole
    rw [leadingParts_eq whole, if_neg dot, List.nil_append]
    exact List.map_congr_left fun i _ => join_cons_unit "." piece u (pieces.take i)

theorem mem_leadingParts (part dotted : Text) :
    part ∈ leadingParts dotted ↔ IsLeading part dotted := by
  induction dotted generalizing part with
  | nil => simp +contextual [IsLeading, leadingParts, Text.splitOn, Text.join]
  | cons u rest ih =>
      rw [leadingParts_cons, List.mem_append, List.mem_map]
      constructor
      · rintro (first | ⟨shorter, listed, rfl⟩)
        · split at first
          · rename_i dot
            rw [List.mem_singleton.mp first, dot]
            exact Or.inr ⟨rest, rfl⟩
          · exact absurd first List.not_mem_nil
        · rcases (ih shorter).mp listed with rfl | ⟨after, split⟩
          · exact Or.inl rfl
          · exact Or.inr ⟨after, congrArg (u :: ·) split⟩
      · rintro (rfl | ⟨after, split⟩)
        · exact Or.inr ⟨rest, (ih rest).mpr (Or.inl rfl), rfl⟩
        · cases part with
          | nil =>
              have dot : u = '.' := (List.cons.inj split).1.symm
              rw [if_pos dot]
              exact Or.inl List.mem_cons_self
          | cons v shorter =>
              obtain ⟨rfl, later⟩ := List.cons.inj split
              exact Or.inr ⟨shorter, (ih shorter).mpr (Or.inr ⟨after, later⟩), rfl⟩

end Leading

/-! Short names. -/

section ShortNames

theorem lastDot_cases (t : Text) :
    (Text.lastIndexOf? "." t = none ∧ countDots t = 0) ∨
      ∃ i, Text.lastIndexOf? "." t = some i ∧ 0 < countDots t ∧ countDots (t.drop (i + 1)) = 0 := by
  induction t with
  | nil => exact Or.inl ⟨rfl, rfl⟩
  | cons u rest ih =>
      have counted : countDots (u :: rest) = countDots rest + if u == '.' then 1 else 0 :=
        List.count_cons
      rcases ih with ⟨absent, none⟩ | ⟨i, found, some, after⟩
      · have first : (Text.ofString ".").isPrefixOf (u :: rest) = (u == '.') := by
          rw [BEq.comm]
          exact Bool.and_true _
        rw [Text.lastIndexOf?, absent, first, counted, none]
        cases (u == '.' : Bool) with
        | true => exact Or.inr ⟨0, rfl, Nat.one_pos, none⟩
        | false => exact Or.inl ⟨rfl, rfl⟩
      · rw [Text.lastIndexOf?, found]
        exact Or.inr ⟨i + 1, rfl, by omega, after⟩

theorem shortName_dots (name : Text) : countDots (TypeName.shortName name) = 0 := by
  rw [TypeName.shortName]
  rcases lastDot_cases name with ⟨absent, none⟩ | ⟨i, found, -, after⟩
  · rw [absent]
    exact none
  · rw [found]
    exact after

theorem shortName_of_dots {name : Text} (none : countDots name = 0) :
    TypeName.shortName name = name := by
  rw [TypeName.shortName]
  rcases lastDot_cases name with ⟨absent, -⟩ | ⟨i, -, some, -⟩
  · rw [absent]
  · omega

end ShortNames

/-! What is offered to the catalog. -/

section Offers

/-- A type as the catalog lists it; a nested generic type has no short name. -/
structure Listing where
  name : Text
  descriptor : Descriptor
  hasShortName : Bool

def Listing.ofModel (model : TypeModel) : Listing :=
  let (name, arity) := TypeName.splitArity model.fullName
  { name
    descriptor := if 0 < arity then .genericType name arity else .type name none
    hasShortName := !(decide (0 < arity) && model.isNested == some true) }

def Listing.ofName (typeName : Text) : Listing :=
  let (name, arity) := TypeName.splitArity typeName
  { name, descriptor := .typeName name arity, hasShortName := true }

/-- A type that is not hidden. -/
def Visible (r : Registry) (model : TypeModel) : Prop :=
  model ∈ r.allTypes ∧ model.isPublic ≠ some false

/-- A name that is known, but not that of a visible type. -/
def Uncovered (r : Registry) (typeName : Text) : Prop :=
  typeName ∈ r.knownTypeNames ∧
    ∀ model, Visible r model → Text.lower model.fullName ≠ Text.lower typeName

/-- What the catalog lists. -/
inductive Listed (r : Registry) : Listing → Prop
  | model (model : TypeModel) (visible : Visible r model) : Listed r (.ofModel model)
  | name (typeName : Text) (uncovered : Uncovered r typeName) : Listed r (.ofName typeName)

/-- Where the descriptors of a key come from. -/
inductive Source (r : Registry) : Text → Descriptor → Prop
  | accelerator (shortForm target : Text) (listed : (shortForm, target) ∈ r.accelerators) :
      Source r shortForm (.type target (some shortForm))
  | whole (l : Listing) (listed : Listed r l) : Source r l.name l.descriptor
  | short (l : Listing) (listed : Listed r l) (hasShortName : l.hasShortName = true) :
      Source r (TypeName.shortName l.name) l.descriptor
  | nameSpace (l : Listing) (listed : Listed r l) (part : Text)
      (leading : IsLeading part (TypeName.namespaceOf l.name)) : Source r part (.nameSpace part)

def acceleratorOffers (r : Registry) : List (Text × Descriptor) :=
  r.accelerators.map fun (shortForm, target) => (shortForm, .type target (some shortForm))

def Listing.offers (l : Listing) : List (Text × Descriptor) :=
  (l.name, l.descriptor) ::
    ((if l.hasShortName then [(TypeName.shortName l.name, l.descriptor)] else []) ++
      (leadingParts (TypeName.namespaceOf l.name)).map fun part => (part, .nameSpace part))

def listings (r : Registry) : List Listing :=
  let visible := r.allTypes.filter (·.isPublic != some false)
  let covered := visible.map fun model => Text.lower model.fullName
  visible.map .ofModel ++
    (r.knownTypeNames.filter fun name => !covered.contains (Text.lower name)).map .ofName

theorem mem_visible (r : Registry) (model : TypeModel) :
    model ∈ r.allTypes.filter (·.isPublic != some false) ↔ Visible r model := by
  rw [List.mem_filter, bne_iff_ne]
  rfl

theorem mem_listings (r : Registry) (l : Listing) : l ∈ listings r ↔ Listed r l := by
  have uncovered : ∀ name, (name ∈ r.knownTypeNames.filter fun name =>
      !((r.allTypes.filter (·.isPublic != some false)).map
        fun model => Text.lower model.fullName).contains (Text.lower name)) ↔
      Uncovered r name := by
    intro name
    rw [List.mem_filter, Bool.not_eq_true', List.contains_eq_mem, decide_eq_false_iff_not,
      List.mem_map]
    refine and_congr_right fun _ => ⟨fun absent model visible same => ?_, ?_⟩
    · exact absent ⟨model, (mem_visible r model).mpr visible, same⟩
    · rintro absent ⟨model, visible, same⟩
      exact absent model ((mem_visible r model).mp visible) same
  rw [listings, List.mem_append, List.mem_map, List.mem_map]
  constructor
  · rintro (⟨model, listed, rfl⟩ | ⟨name, listed, rfl⟩)
    · exact .model model ((mem_visible r model).mp listed)
    · exact .name name ((uncovered name).mp listed)
  · rintro (⟨model, visible⟩ | ⟨name, isUncovered⟩)
    · exact Or.inl ⟨model, (mem_visible r model).mpr visible, rfl⟩
    · exact Or.inr ⟨name, (uncovered name).mpr isUncovered, rfl⟩

theorem addNamespaces_eq (c : Catalog) (dotted : Text) :
    c.addNamespaces dotted = c.fill ((leadingParts dotted).map fun part => (part, .nameSpace part)) := by
  rw [addNamespaces]
  split
  · rename_i empty
    rw [List.isEmpty_iff.mp empty]
    rfl
  · rw [fill, List.foldl_map]

theorem addModel_eq (c : Catalog) (model : TypeModel) :
    c.addModel model = c.fill (Listing.ofModel model).offers := by
  rw [Listing.offers, fill_cons, fill_append, ← addNamespaces_eq, addModel, Listing.ofModel]
  obtain ⟨name, arity⟩ := TypeName.splitArity model.fullName
  cases nested : decide (0 < arity) && model.isNested == some true with
  | true =>
      simp only [nested]
      rfl
  | false =>
      simp only [nested]
      rfl

theorem addName_eq (c : Catalog) (typeName : Text) :
    c.addName typeName = c.fill (Listing.ofName typeName).offers := by
  rw [Listing.offers, fill_cons, fill_append, ← addNamespaces_eq]
  rfl

theorem ofRegistry_eq (r : Registry) :
    ofRegistry r = fill ⟨[]⟩ (acceleratorOffers r ++ (listings r).flatMap Listing.offers) := by
  rw [fill_append, listings, List.flatMap_append, fill_append, List.flatMap_map, List.flatMap_map,
    ← foldl_eq_fill addModel_eq, ← foldl_eq_fill addName_eq, acceleratorOffers, fill, List.foldl_map]
  rfl

theorem source_of_offer {r : Registry} {offer : Text × Descriptor}
    (listed : offer ∈ acceleratorOffers r ++ (listings r).flatMap Listing.offers) :
    Source r offer.1 offer.2 := by
  rcases List.mem_append.mp listed with isAccelerator | isType
  · obtain ⟨⟨shortForm, target⟩, isThere, rfl⟩ := List.mem_map.mp isAccelerator
    exact .accelerator shortForm target isThere
  · obtain ⟨l, isListing, isOffer⟩ := List.mem_flatMap.mp isType
    have isListed := (mem_listings r l).mp isListing
    rcases List.mem_cons.mp isOffer with rfl | later
    · exact .whole l isListed
    rcases List.mem_append.mp later with isShort | isPart
    · split at isShort
      · rename_i hasShortName
        rw [List.mem_singleton.mp isShort]
        exact .short l isListed hasShortName
      · exact absurd isShort List.not_mem_nil
    · obtain ⟨part, isLeading, rfl⟩ := List.mem_map.mp isPart
      exact .nameSpace l isListed part ((mem_leadingParts _ _).mp isLeading)

theorem offer_of_source {r : Registry} {key : Text} {d : Descriptor} (source : Source r key d) :
    (key, d) ∈ acceleratorOffers r ++ (listings r).flatMap Listing.offers := by
  have ofListing : ∀ l, Listed r l → (key, d) ∈ l.offers →
      (key, d) ∈ acceleratorOffers r ++ (listings r).flatMap Listing.offers := fun l listed offered =>
    List.mem_append_right _ (List.mem_flatMap.mpr ⟨l, (mem_listings r l).mpr listed, offered⟩)
  cases source with
  | accelerator shortForm target listed =>
      exact List.mem_append_left _ (List.mem_map.mpr ⟨(key, target), listed, rfl⟩)
  | whole l listed => exact ofListing l listed List.mem_cons_self
  | short l listed hasShortName =>
      refine ofListing l listed (List.mem_cons_of_mem _ (List.mem_append_left _ ?_))
      rw [if_pos hasShortName]
      exact List.mem_cons_self
  | nameSpace l listed _ leading =>
      refine ofListing l listed (List.mem_cons_of_mem _ (List.mem_append_right _ ?_))
      exact List.mem_map.mpr ⟨key, (mem_leadingParts _ _).mpr leading, rfl⟩

end Offers

/-! Identities. -/

section Identity

/-- The full name that a descriptor of a type gives. -/
def fullName? : Descriptor → Option Text
  | .type fullName _ => some fullName
  | .genericType fullName _ => some fullName
  | .nameSpace _ => none
  | .typeName fullName _ => some fullName

/-- A descriptor that gives a full name and no accelerator. -/
inductive Named : Text → Descriptor → Prop
  | type (fullName : Text) : Named fullName (.type fullName none)
  | generic (fullName : Text) (arity : Int) : Named fullName (.genericType fullName arity)
  | name (fullName : Text) (arity : Int) : Named fullName (.typeName fullName arity)

theorem Named.fullName?_eq {name : Text} {d : Descriptor} (named : Named name d) :
    fullName? d = some name := by
  cases named <;> rfl

theorem Listed.named {r : Registry} {l : Listing} (listed : Listed r l) :
    Named l.name l.descriptor := by
  cases listed with
  | model model visible =>
      rw [Listing.ofModel]
      obtain ⟨name, arity⟩ := TypeName.splitArity model.fullName
      dsimp only
      split
      · exact .generic name arity
      · exact .type name
  | name typeName uncovered => exact .name _ _

theorem lower_tagged {tag : CodeUnit} (ascii : tag.toNat < 0x80) (t : Text) :
    Text.lower (tag :: 0x3A :: t) =
      Text.lowerUnit tag :: 0x3A :: Text.lowerAfter [0x3A, tag.toNat] t := by
  rw [Text.lower_eq, Text.lowerAfter_cons ascii, Text.lowerAfter_cons (by decide)]
  rfl

theorem key_type (fullName : Text) (accelerator : Option Text) :
    (Descriptor.type fullName accelerator).key =
      0x74 :: 0x3A ::
        Text.lowerAfter [0x3A, 0x74] (fullName ++ ":" ++ accelerator.getD [] : Text) :=
  lower_tagged (by decide) (fullName ++ ":" ++ accelerator.getD [] : Text)

theorem key_plainType (fullName : Text) :
    (Descriptor.type fullName none).key =
      0x74 :: 0x3A :: (Text.lowerAfter [0x3A, 0x74] fullName ++ ":" : Text) := by
  rw [key_type, Option.getD_none, List.append_nil, Text.lowerAfter_colon]

theorem key_genericType (fullName : Text) (arity : Int) :
    (Descriptor.genericType fullName arity).key =
      0x67 :: 0x3A :: Text.lowerAfter [0x3A, 0x67] fullName := lower_tagged (by decide) fullName

theorem key_nameSpace (name : Text) :
    (Descriptor.nameSpace name).key = 0x6E :: 0x3A :: Text.lowerAfter [0x3A, 0x6E] name :=
  lower_tagged (by decide) name

theorem key_typeName (fullName : Text) (arity : Int) :
    (Descriptor.typeName fullName arity).key =
      0x73 :: 0x3A :: Text.lowerAfter [0x3A, 0x73] fullName := lower_tagged (by decide) fullName

/-- Descriptors with one identity name one type, up to how its name is lowered behind a tag. -/
theorem lowerAfter_of_key {name name' : Text} {d d' : Descriptor} (named : Named name d)
    (named' : Named name' d') (same : d'.key = d.key) :
    ∃ before, Text.lowerAfter before name' = Text.lowerAfter before name := by
  cases named <;> cases named' <;>
    simp [key_plainType, key_genericType, key_typeName] at same <;> exact ⟨_, same⟩

theorem nameSpace_apart {name part : Text} {d : Descriptor} (named : Named name d) :
    d.key ≠ (Descriptor.nameSpace part).key := by
  cases named <;> simp [key_nameSpace, key_plainType, key_genericType, key_typeName]

/-- A text that does not end like the identity of a type without an accelerator. -/
def EndsApart (shortForm : Text) : Prop :=
  ∃ u, shortForm.getLast? = some u ∧ u.toNat < 0x80 ∧ Text.lowerUnit u ≠ 0x3A

theorem accelerated_apart {name target shortForm : Text} {d : Descriptor} (named : Named name d)
    (ends : EndsApart shortForm) : (Descriptor.type target (some shortForm)).key ≠ d.key := by
  obtain ⟨u, isLast, ascii, other⟩ := ends
  obtain ⟨front, rfl⟩ := List.getLast?_eq_some_iff.mp isLast
  cases named with
  | type =>
      intro same
      have last := congrArg List.getLast? same
      have accelerated : (target ++ ":" ++ (front ++ [u]) : Text) =
          (target ++ ":" ++ front : Text) ++ [u] := by simp
      rw [key_type, key_plainType, Option.getD_some, accelerated] at last
      simp only [List.getLast?_cons, Text.getLast?_lowerAfter ascii, List.getLast?_append] at last
      exact other (Option.some.inj last)
  | generic => simp [key_type, key_genericType]
  | name => simp [key_type, key_typeName]

end Identity

/-! Completeness. -/

section Complete

/-- A registry with the accelerators that every registry starts with. -/
def Standard (r : Registry) : Prop := r.accelerators = Bundled.accelerators

/-- The registry after some types were added. -/
def added (models : List TypeModel) : Registry := models.foldl Registry.addType .bundled

theorem added_standard (models : List TypeModel) : Standard (added models) := by
  have goesOn : ∀ r, Standard r → Standard (models.foldl Registry.addType r) := by
    induction models with
    | nil => exact fun r standard => standard
    | cons first rest ih => exact fun r standard => ih (r.addType first) standard
  exact goesOn _ rfl

theorem accelerators_distinct : (Bundled.accelerators.map fun pair => Text.lower pair.1).Nodup := by
  decide +kernel

theorem accelerators_endApart {pair : Text × Text} (listed : pair ∈ Bundled.accelerators) :
    EndsApart pair.1 := by
  have checked : Bundled.accelerators.all (fun pair =>
      pair.1.getLast?.any fun u => decide (u.toNat < 0x80) && Text.lowerUnit u != 0x3A) = true := by
    decide +kernel
  have here := List.all_eq_true.mp checked pair listed
  cases isLast : pair.1.getLast? with
  | none => simp [isLast] at here
  | some u =>
      rw [isLast, Option.any_some, Bool.and_eq_true, decide_eq_true_eq, bne_iff_ne] at here
      exact ⟨u, isLast, here.1, here.2⟩

/-- The entry of a key has a descriptor with the given property. -/
def Holds (c : Catalog) (key : Text) (p : Descriptor → Prop) : Prop :=
  ∃ e, c.find? key = some e ∧ ∃ d ∈ e.descriptors, p d

/-- A type is there by its name, by its short name and by the namespaces around it, all up to letter
case. A name found by the short name may have another form of sigma, if one of the two has a capital
sigma. -/
structure Present (c : Catalog) (l : Listing) : Prop where
  whole : l.name ≠ [] → Holds c l.name fun d =>
    ∃ name, fullName? d = some name ∧ Text.lower name = Text.lower l.name
  short : l.hasShortName = true → TypeName.shortName l.name ≠ [] →
    Holds c (TypeName.shortName l.name) fun d =>
      ∃ name, fullName? d = some name ∧ Text.caseless name = Text.caseless l.name ∧
        (Text.capitalSigma ∉ name ++ l.name → Text.lower name = Text.lower l.name)
  nameSpaces : ∀ part, part ≠ [] → IsLeading part (TypeName.namespaceOf l.name) →
    Holds c part fun d => ∃ name, d = .nameSpace name ∧ Text.lower name = Text.lower part

theorem empty_kept : (⟨[]⟩ : Catalog).Kept :=
  fun _ => ⟨List.nodup_nil, fun _ _ listed => absurd listed List.not_mem_nil⟩

theorem ofRegistry_kept (r : Registry) : (ofRegistry r).Kept := by
  rw [ofRegistry_eq]
  exact fill_kept empty_kept

theorem ofRegistry_stems (r : Registry) : (ofRegistry r).Stems (Source r) := by
  rw [ofRegistry_eq]
  exact fill_stems (fun _ _ _ listed => absurd listed List.not_mem_nil)
    fun offer listed _ => source_of_offer listed

variable {r : Registry} {key : Text} {d d' : Descriptor}

/-- What is offered is there under its identity, and was itself offered under that key. -/
theorem source_held (source : Source r key d) (filled : key ≠ []) :
    Holds (ofRegistry r) key fun d' =>
      d'.key = d.key ∧ ∃ key', Source r key' d' ∧ Text.lower key' = Text.lower key := by
  obtain ⟨e, found, d', listed, same⟩ : ∃ e, (ofRegistry r).find? key = some e ∧
      ∃ d' ∈ e.descriptors, d'.key = d.key := by
    rw [ofRegistry_eq]
    exact fill_holds (offer_of_source source) filled
  have isEntry : (Text.lower key, e) ∈ (ofRegistry r).bucket (countDots key) :=
    (Assoc.get?_eq_some_iff (ofRegistry_kept r _).keys).mp found
  exact ⟨e, found, d', listed, same, ofRegistry_stems r _ _ e isEntry d' listed⟩

theorem Holds.imp {c : Catalog} {p q : Descriptor → Prop} (holds : Holds c key p)
    (implies : ∀ d, p d → q d) : Holds c key q := by
  obtain ⟨e, found, d, listed, isSo⟩ := holds
  exact ⟨e, found, d, listed, implies d isSo⟩

/-- A descriptor that passes for one of a listed type is itself one, under its whole or its short
name. -/
theorem source_named (standard : Standard r) {name : Text} (named : Named name d)
    (source : Source r key d') (same : d'.key = d.key) :
    ∃ l, Listed r l ∧ d' = l.descriptor ∧ (key = l.name ∨ key = TypeName.shortName l.name) := by
  cases source with
  | accelerator _ target listed =>
      have ends := accelerators_endApart (standard ▸ listed)
      exact absurd same (accelerated_apart named ends)
  | whole l listed => exact ⟨l, listed, rfl, Or.inl rfl⟩
  | short l listed hasShortName => exact ⟨l, listed, rfl, Or.inr rfl⟩
  | nameSpace l listed _ leading => exact absurd same.symm (nameSpace_apart named)

theorem whole_held (standard : Standard r) {l : Listing} (listed : Listed r l)
    (filled : l.name ≠ []) :
    Holds (ofRegistry r) l.name fun d =>
      ∃ name, fullName? d = some name ∧ Text.lower name = Text.lower l.name := by
  refine (source_held (.whole l listed) filled).imp fun d' held => ?_
  obtain ⟨same, key, source, lowered⟩ := held
  obtain ⟨l', listed', rfl, isKey⟩ := source_named standard listed.named source same
  refine ⟨l'.name, listed'.named.fullName?_eq, ?_⟩
  rcases isKey with rfl | rfl
  · exact lowered
  -- A short name has no dots, so here the two types have none either.
  obtain ⟨before, lowered'⟩ := lowerAfter_of_key listed.named listed'.named same
  have dots : countDots l'.name = countDots (TypeName.shortName l'.name) := by
    rw [countDots_of_lower lowered, ← countDots_lowerAfter before l'.name,
      ← countDots_lowerAfter before l.name, lowered']
  rw [shortName_of_dots (dots.trans (shortName_dots _))] at lowered
  exact lowered

theorem short_held (standard : Standard r) {l : Listing} (listed : Listed r l)
    (hasShortName : l.hasShortName = true) (filled : TypeName.shortName l.name ≠ []) :
    Holds (ofRegistry r) (TypeName.shortName l.name) fun d =>
      ∃ name, fullName? d = some name ∧ Text.caseless name = Text.caseless l.name ∧
        (Text.capitalSigma ∉ name ++ l.name → Text.lower name = Text.lower l.name) := by
  refine (source_held (.short l listed hasShortName) filled).imp fun d' held => ?_
  obtain ⟨same, key, source, -⟩ := held
  obtain ⟨l', listed', rfl, -⟩ := source_named standard listed.named source same
  obtain ⟨before, lowered⟩ := lowerAfter_of_key listed.named listed'.named same
  refine ⟨l'.name, listed'.named.fullName?_eq, ?_, fun plain => ?_⟩
  · rw [← Text.caseless_lowerAfter before, lowered, Text.caseless_lowerAfter]
  · rw [List.mem_append, not_or] at plain
    rwa [Text.lowerAfter_plain plain.1, Text.lowerAfter_plain plain.2] at lowered

theorem nameSpace_held {l : Listing} (listed : Listed r l) {part : Text} (filled : part ≠ [])
    (leading : IsLeading part (TypeName.namespaceOf l.name)) :
    Holds (ofRegistry r) part fun d =>
      ∃ name, d = .nameSpace name ∧ Text.lower name = Text.lower part := by
  refine (source_held (.nameSpace l listed part leading) filled).imp fun d' held => ?_
  obtain ⟨same, key, source, lowered⟩ := held
  cases source with
  | accelerator => simp [key_type, key_nameSpace] at same
  | whole l' listed' => exact absurd same (nameSpace_apart listed'.named)
  | short l' listed' => exact absurd same (nameSpace_apart listed'.named)
  | nameSpace => exact ⟨key, rfl, lowered⟩

theorem listed_present (standard : Standard r) {l : Listing} (listed : Listed r l) :
    Present (ofRegistry r) l :=
  ⟨whole_held standard listed, short_held standard listed, fun _ => nameSpace_held listed⟩

theorem accelerator_held (standard : Standard r) {shortForm target : Text}
    (listed : (shortForm, target) ∈ r.accelerators) :
    ∃ e, (ofRegistry r).find? shortForm = some e ∧ e.key = shortForm ∧
      .type target (some shortForm) ∈ e.descriptors := by
  rw [standard] at listed
  obtain ⟨u, isLast, -⟩ := accelerators_endApart listed
  have filled : shortForm ≠ [] := by
    rintro rfl
    exact absurd isLast (by simp)
  obtain ⟨front, back, split⟩ := List.append_of_mem listed
  have first : ∀ pair ∈ front, Text.lower pair.1 ≠ Text.lower shortForm := by
    have distinct := accelerators_distinct
    rw [split, List.map_append, List.nodup_append] at distinct
    exact fun pair isFront =>
      distinct.2.2 _ (List.mem_map_of_mem isFront) _ List.mem_cons_self
  rw [ofRegistry_eq, acceleratorOffers, standard, split, List.map_append,
    List.map_cons, List.append_assoc]
  refine fill_first filled rfl fun offer isFront => ?_
  obtain ⟨pair, isPair, rfl⟩ := List.mem_map.mp isFront
  exact first pair isPair

/-- What the catalog of a registry is. -/
structure Complete (r : Registry) (c : Catalog) : Prop where
  kept : c.Kept
  accelerators : ∀ shortForm target, (shortForm, target) ∈ r.accelerators →
    ∃ e, c.find? shortForm = some e ∧ e.key = shortForm ∧
      .type target (some shortForm) ∈ e.descriptors
  types : ∀ model, Visible r model → Present c (.ofModel model)
  names : ∀ typeName, Uncovered r typeName → Present c (.ofName typeName)
  sources : c.Stems (Source r)
  lookups : ∀ word pattern,
    Wildcard.Pattern.compile (if Text.endsWith word "*" then word else word ++ "*") = .ok pattern →
    c.lookup word = .ok (c.pairs.filter fun pair =>
      pattern.test pair.1 && countDots pair.1 == countDots word)

theorem catalog_complete (models : List TypeModel) :
    Complete (added models) (ofRegistry (added models)) where
  kept := ofRegistry_kept _
  accelerators := fun _ _ listed => accelerator_held (added_standard models) listed
  types := fun model visible => listed_present (added_standard models) (.model model visible)
  names := fun name uncovered => listed_present (added_standard models) (.name name uncovered)
  sources := ofRegistry_stems _
  lookups := fun _ _ compiled => lookup_eq (ofRegistry_kept _) compiled

/-- Types whose names differ in the form of a sigma share an identity, so a short name they share
lists one of them. -/
theorem sigma_types_exclude_each_other :
    Text.lower "ς_N.Sum" ≠ Text.lower "Σ_N.Sum" ∧
      TypeName.shortName "ς_N.Sum" = TypeName.shortName "Σ_N.Sum" ∧
      ∀ r e, (ofRegistry r).find? (TypeName.shortName "Σ_N.Sum") = some e →
        ¬(.type "ς_N.Sum" none ∈ e.descriptors ∧ .type "Σ_N.Sum" none ∈ e.descriptors) := by
  refine ⟨by decide +kernel, by decide +kernel, ?_⟩
  rintro r e found ⟨isFinal, isOpen⟩
  have isEntry := (Assoc.get?_eq_some_iff (ofRegistry_kept r _).keys).mp found
  have distinct := ((ofRegistry_kept r _).entries _ _ isEntry).distinct
  have identity : (Descriptor.type "ς_N.Sum" none).key = (Descriptor.type "Σ_N.Sum" none).key := by
    decide +kernel
  have same := List.inj_on_of_nodup_map distinct isFinal isOpen identity
  exact absurd (Descriptor.type.inj same).1 (by decide +kernel)

end Complete

end TabCompletion.Catalog
