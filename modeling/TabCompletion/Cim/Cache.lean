import TabCompletion.Engine.Basic
import TabCompletion.Sorting

/-!
What is kept of management servers. Listings of classes and associations and single classes are
kept once they were fetched completely; a listing that the user interrupted is given but not kept.
Every session that is opened is closed before the answer is given.
-/

namespace TabCompletion.Cim

structure Fetched (α : Type) where
  value : α
  complete : Bool

def classKey (nameSpace className : Text) : Text := Text.lower nameSpace ++ ":" ++ Text.lower className

def modifyState (change : CimState → CimState) : Engine Unit :=
  modify fun state => { state with cim := change state.cim }

def dispose (server : Server) (number : Nat) : Engine (Option Unit) := do
  modifyState fun known => { known with disposed := known.disposed ++ [number] }
  return if server.closes then some () else none

/-- Runs an operation in a session of its own, which is closed afterwards. Without a server, or
when something fails, the answer is the empty one; a failure to close is passed over. -/
def withSession (empty : α) (operation : Server → Engine (Option (Fetched α))) : Engine (Fetched α) := do
  match (← read).cim with
  | none => return ⟨empty, false⟩
  | some server =>
      if server.opens then do
        let number := (← get).cim.opened
        modifyState fun known => { known with opened := number + 1 }
        let fetched ← operation server
        let _ ← dispose server number
        return fetched.getD ⟨empty, false⟩
      else return ⟨empty, false⟩

def foldUntilStopped (session : Option Session) (add : β → α → β) : β → List α → Engine (β × Bool)
  | found, [] => return (found, true)
  | found, item :: rest => do
      if ← Engine.isStopped session then return (found, false)
      else foldUntilStopped session add (add found item) rest

/-- Collects an enumeration. An interruption gives what was found before it; a failure gives nothing,
whatever came before. -/
def collect (session : Option Session) (add : β → α → β) (start : β) (source : Enumeration α) :
    Engine (Option (Fetched β)) := do
  let (found, reachedEnd) ← foldUntilStopped session add start source.items
  return if reachedEnd && source.fails then none else some ⟨found, reachedEnd⟩

def Fetched.sorted (fetched : Fetched (List Text)) : Fetched (List Text) :=
  if fetched.complete then { fetched with value := sortIgnoringCase id fetched.value } else fetched

def classNames (session : Option Session) (nameSpace : Text) : Engine (List Text) := do
  let key := Text.lower nameSpace
  match Assoc.get? (← get).cim.classNames key with
  | some known => return known
  | none => do
      let fetched ← withSession [] fun server => do
        let found ← collect session (fun names (c : ClassInfo) => names ++ [c.className]) []
          (server.classes nameSpace)
        return found.map Fetched.sorted
      if fetched.complete then
        modifyState fun known => { known with classNames := Assoc.set known.classNames key fetched.value }
      return fetched.value

def associatedNames (session : Option Session) (nameSpace className : Text) : Engine (List Text) := do
  let key := classKey nameSpace className
  match Assoc.get? (← get).cim.associations key with
  | some known => return known
  | none => do
      let fetched ← withSession [] fun server => do
        let found ← collect session (fun names (name : Text) => Assoc.set names (Text.lower name) name) []
          (server.associated nameSpace className)
        return found.map fun f => Fetched.sorted ⟨Assoc.values f.value, f.complete⟩
      if fetched.complete then
        modifyState fun known => { known with associations := Assoc.set known.associations key fetched.value }
      return fetched.value

def classInfo (session : Option Session) (nameSpace className : Text) : Engine (Option ClassInfo) := do
  let key := classKey nameSpace className
  match Assoc.get? (← get).cim.classes key with
  | some known => return some known
  | none => do
      if ← Engine.isStopped session then return none
      else do
        let fetched ← withSession none fun server =>
          return (server.classInfo nameSpace className).map fun found => ⟨found, true⟩
        match fetched.value with
        | some found => do
            modifyState fun known => { known with classes := Assoc.set known.classes key found }
            return some found
        | none => return none

def childNamespaces (session : Option Session) (nameSpace : Text) : Engine (List Text) := do
  let fetched ← withSession [] fun server => do
    let found ← collect session (fun names (name : Option Text) => names ++ name.toList.map fun n =>
      nameSpace ++ "/" ++ n) [] (server.childNames nameSpace)
    return found.map fun f => ⟨sortIgnoringCase id f.value, true⟩
  return fetched.value

end TabCompletion.Cim
