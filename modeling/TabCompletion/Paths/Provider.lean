import TabCompletion.Text.Basic

/-!
Navigation: what the completion of paths needs to know of a place that holds items.
-/

namespace TabCompletion

structure PathItem where
  name : Text
  path : Text
  isContainer : Bool
  isHidden : Bool

structure PathProvider where
  separator : CodeUnit
  currentLocation : Text
  home : Text
  isAbsolute : Text → Bool
  join : Text → Text → Text
  /-- The items of a container, with or without the hidden ones; absent when there is none. -/
  childItems : Text → Bool → Option (List PathItem)
  /-- The names of the shares of a server; absent when the server is not reached. -/
  shares : Text → Option (List Text)

end TabCompletion
