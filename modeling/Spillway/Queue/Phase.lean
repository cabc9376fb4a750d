import Spillway.Fault

/-!
# Phases

The life of a queue. Only an active queue serves; a destroyed one stays destroyed.
-/

namespace Spillway

/-- Where a queue is in its life. -/
inductive Phase
  | uninitialized | active | shutdown | destroyed
  deriving DecidableEq, Repr

namespace Phase

/-- The word for a phase. -/
def name : Phase → String
  | .uninitialized => "uninitialized"
  | .active => "active"
  | .shutdown => "shutdown"
  | .destroyed => "destroyed"

/-- Whether the queue was closed, for a while or for good. -/
def isClosed : Phase → Bool
  | .shutdown | .destroyed => true
  | .uninitialized | .active => false

/-- Refuse work on a queue that is not active. -/
def requireActive (p : Phase) (queue : String) : Except Fault Unit :=
  if p = .active then .ok () else .error (.inactive queue)

/-- Refuse work on a queue that is destroyed. -/
def requireAlive (p : Phase) (queue : String) : Except Fault Unit :=
  if p = .destroyed then .error (.inactive queue) else .ok ()

end Phase

end Spillway
