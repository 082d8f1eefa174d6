import TabCompletion.Number.Basic

/-!
Options of a completion request: named switches that change how results are formatted or filtered.
-/

namespace TabCompletion

structure Options where
  /-- Wildcard characters in completed paths are not escaped. -/
  literalPaths : Bool := false
  /-- Forces relative or absolute paths; when unset the word decides. -/
  relativePaths : Option Bool := none
  /-- Administrative shares are skipped. -/
  ignoreHiddenShares : Bool := false
  /-- The most history entries of one request. -/
  maxHistoryEntries : Number := .ofNat 50

structure OptionOverrides where
  literalPaths : Option Bool := none
  relativePaths : Option Bool := none
  ignoreHiddenShares : Option Bool := none
  maxHistoryEntries : Option Number := none

/-- The defaults with what is set put over them; a history limit counts only if it is positive, and
is rounded down. -/
def Options.ofOverrides (o : OptionOverrides) : Options :=
  let base : Options := {}
  { literalPaths := o.literalPaths.getD base.literalPaths
    relativePaths := o.relativePaths
    ignoreHiddenShares := o.ignoreHiddenShares.getD base.ignoreHiddenShares
    maxHistoryEntries := match o.maxHistoryEntries with
      | some limit => if Number.zero.lt limit then limit.floor else base.maxHistoryEntries
      | none => base.maxHistoryEntries }

def Options.toOverrides (o : Options) : OptionOverrides :=
  { literalPaths := some o.literalPaths, relativePaths := o.relativePaths,
    ignoreHiddenShares := some o.ignoreHiddenShares, maxHistoryEntries := some o.maxHistoryEntries }

end TabCompletion
