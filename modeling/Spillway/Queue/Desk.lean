import Spillway.Queue.Hooks
import Spillway.Queue.Phase
import Spillway.Store.Basic

/-!
# Queues at work

A desk is a queue together with the store it may use and the hook calls it has made. Here is what
all kinds of queue have in common: a queue that is not active refuses all work, a put is framed by
its hook, a change is announced to the size watchers, and a queue over its bounds refuses puts.
-/

namespace Spillway

/-- What every kind of queue has. -/
class Managed (Q : Type) where
  /-- Name of the queue. -/
  storageId : Q → StorageId
  /-- How much it may hold. -/
  bounds : Q → Bounds
  /-- Where it is in its life. -/
  phase : Q → Phase
  /-- Its totals. -/
  tally : Q → Tally
  /-- What it calls. -/
  hooks : Q → Hooks

/-- A queue at work. -/
structure Desk (Q : Type) where
  /-- The queue. -/
  queue : Q
  /-- The store it may use. -/
  store : Store
  /-- The hook calls made so far, in order. -/
  calls : List Call := []

namespace Desk

variable {Q α : Type}

/-- The queue on the desk. -/
def theQueue : Action (Desk Q) Q := return (← get).queue

/-- Change the queue on the desk. -/
def changeQueue (change : Q → Q) : Action (Desk Q) Unit :=
  modify fun d => { d with queue := change d.queue }

/-- Work on the store. -/
def onStore (act : Action Store α) : Action (Desk Q) α :=
  act.focus Desk.store fun store d => { d with store }

/-- Run a statement on the table. -/
def call (task : Task) (statement : Statement α) : Action (Desk Q) α :=
  onStore (Store.call task statement)

/-- Count an event. -/
def count (change : Totals → Totals) : Action (Desk Q) Unit :=
  onStore (modify fun s => { s with totals := change s.totals })

/-- Record hook calls. -/
def record (calls : List Call) : Action (Desk Q) Unit :=
  modify fun d => { d with calls := d.calls ++ calls }

/-- To look at the queue leaves the desk. -/
@[simp] theorem on_theQueue (d : Desk Q) :
    (theQueue : Action (Desk Q) Q).on d = (.ok d.queue, d) := rfl

/-- To change it leaves the rest of the desk. -/
@[simp] theorem on_changeQueue (change : Q → Q) (d : Desk Q) :
    (changeQueue change).on d = (.ok (), { d with queue := change d.queue }) := rfl

/-- To count an event changes the totals of the store alone. -/
@[simp] theorem on_count (change : Totals → Totals) (d : Desk Q) :
    (count change).on d =
      (.ok (), { d with store := { d.store with totals := change d.store.totals } }) := rfl

/-- Calls come after those that were made before. -/
@[simp] theorem on_record (calls : List Call) (d : Desk Q) :
    (record calls).on d = (.ok (), { d with calls := d.calls ++ calls }) := rfl

variable [Managed Q]

/-- Go on only if the queue is active. -/
def requireActive : Action (Desk Q) Unit := do
  let q ← theQueue
  Action.require ((Managed.phase q).requireActive (Managed.storageId q).text)

/-- Go on only if the queue is not destroyed. -/
def requireAlive : Action (Desk Q) Unit := do
  let q ← theQueue
  Action.require ((Managed.phase q).requireAlive (Managed.storageId q).text)

/-- Tell the size watchers the totals. -/
def announce (closed : Bool) : Action (Desk Q) Unit := do
  let q ← theQueue
  record ((Managed.hooks q).sizeChanged (Managed.storageId q) (Managed.tally q) closed)

/-- Go on only if the queue is within its bounds. -/
def requireRoom : Action (Desk Q) Unit := do
  let q ← theQueue
  match (Managed.tally q).overflow? (Managed.bounds q) with
  | none => return
  | some excess =>
    count fun t => { t with rejected := t.rejected + 1 }
    throw (.overflow (Managed.storageId q).text excess)

/-- Read from an active queue. -/
def reading (act : Action (Desk Q) α) : Action (Desk Q) α := do
  requireActive
  act

/-- Change an active queue and tell the size watchers, unless the change fails. -/
def changing (act : Action (Desk Q) α) : Action (Desk Q) α := do
  requireActive
  let result ← act
  announce false
  return result

/-- Put a batch with the put hook around it. The hook is called again afterwards if `store`
succeeds and says that it had something to do. -/
def framingPut (batch : List Entry) (bypass : Bool) (store : Action (Desk Q) Bool) :
    Action (Desk Q) Unit := do
  requireActive
  let hooks := Managed.hooks (← theQueue)
  let (calls, proceed) := hooks.beforePut batch bypass
  record calls
  if proceed then
    if ← store then record (hooks.afterPut batch bypass)

/-- The calls that announce the totals of a queue. -/
def announcement (q : Q) (closed : Bool) : List Call :=
  (Managed.hooks q).sizeChanged (Managed.storageId q) (Managed.tally q) closed

/-- Every size watcher is called, in their order. -/
@[simp] theorem on_announce (closed : Bool) (d : Desk Q) :
    (announce closed).on d =
      (.ok (), { d with calls := d.calls ++ announcement d.queue closed }) := rfl

/-- To ask whether the queue is active leaves the desk. -/
theorem on_requireActive (d : Desk Q) : (requireActive : Action (Desk Q) Unit).on d =
    ((Managed.phase d.queue).requireActive (Managed.storageId d.queue).text, d) := rfl

/-- So does asking whether it is destroyed. -/
theorem on_requireAlive (d : Desk Q) : (requireAlive : Action (Desk Q) Unit).on d =
    ((Managed.phase d.queue).requireAlive (Managed.storageId d.queue).text, d) := rfl

/-- An active queue reads. -/
theorem on_reading {d : Desk Q} (ha : Managed.phase d.queue = .active) (act : Action (Desk Q) α) :
    (reading act).on d = act.on d := by
  simp [reading, Action.on_bind, on_requireActive, ha, Phase.requireActive]

/-- An active queue announces a change that succeeds. -/
theorem on_changing {d : Desk Q} (ha : Managed.phase d.queue = .active)
    (act : Action (Desk Q) α) :
    (changing act).on d =
      match act.on d with
      | (.ok a, d') => (.ok a, { d' with calls := d'.calls ++ announcement d'.queue false })
      | (.error fault, d') => (.error fault, d') := by
  simp only [changing, Action.on_bind, on_requireActive, ha, Phase.requireActive, if_true]
  rcases act.on d with ⟨outcome, d'⟩
  cases outcome <;> rfl

/-- A queue that is not destroyed goes on. -/
theorem on_requireAlive_alive {d : Desk Q} (hd : Managed.phase d.queue ≠ .destroyed) :
    (requireAlive : Action (Desk Q) Unit).on d = (.ok (), d) := by
  rw [on_requireAlive, Phase.requireAlive, if_neg hd]

/-- A destroyed queue is not to be opened. -/
theorem on_requireAlive_destroyed {d : Desk Q} (hd : Managed.phase d.queue = .destroyed) :
    (requireAlive : Action (Desk Q) Unit).on d =
      (.error (.inactive (Managed.storageId d.queue).text), d) := by
  rw [on_requireAlive, Phase.requireAlive, if_pos hd]

/-- A queue that is not active neither reads nor changes. -/
theorem on_reading_inactive {d : Desk Q} (ha : Managed.phase d.queue ≠ .active)
    (act : Action (Desk Q) α) :
    (reading act).on d = (.error (.inactive (Managed.storageId d.queue).text), d) := by
  simp [reading, Action.on_bind, on_requireActive, ha, Phase.requireActive]

/-- A queue that is not active refuses to change. -/
theorem on_changing_inactive {d : Desk Q} (ha : Managed.phase d.queue ≠ .active)
    (act : Action (Desk Q) α) :
    (changing act).on d = (.error (.inactive (Managed.storageId d.queue).text), d) := by
  simp [changing, Action.on_bind, on_requireActive, ha, Phase.requireActive]

/-- It takes no puts either, and does not ask their hook. -/
theorem on_framingPut_inactive {d : Desk Q} (ha : Managed.phase d.queue ≠ .active)
    (batch : List Entry) (bypass : Bool) (store : Action (Desk Q) Bool) :
    (framingPut batch bypass store).on d =
      (.error (.inactive (Managed.storageId d.queue).text), d) := by
  simp [framingPut, Action.on_bind, on_requireActive, ha, Phase.requireActive]

end Desk

end Spillway
