import TabCompletion.Text.Basic

/-!
Notifications that the server sends on its own. Until a connection is attached they are dropped.
-/

namespace TabCompletion.Editor

structure Notifier (Connection : Type) where
  connection : Option Connection := none

namespace Notifier

def readyMethod : Text := "shellCompletion/ready"

def connect (_ : Notifier Connection) (connection : Connection) : Notifier Connection := ⟨some connection⟩

def ready (n : Notifier Connection) (notice : α) : List (Connection × α) :=
  n.connection.toList.map fun connection => (connection, notice)

end Notifier

end TabCompletion.Editor
