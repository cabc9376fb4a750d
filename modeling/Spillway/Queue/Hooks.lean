import Spillway.Queue.StorageId
import Spillway.Queue.Tally

/-!
# Hooks

A queue calls at most one put hook around each put, and all of its size watchers after each
change. A put hook may take a put over; the queue then stores nothing. The calls are recorded in
the order in which they are made.
-/

namespace Spillway

/-- A hook that is called before and after each put. -/
structure PutHook where
  /-- Name by which its calls are recorded. -/
  name : String
  /-- Whether the queue shall go on and store a batch. -/
  accepts : List Entry → Bool

/-- What a queue calls. -/
structure Hooks where
  /-- Called around each put. -/
  put : Option PutHook := none
  /-- Names of the size watchers, in the order of registration; one may be there twice. -/
  watchers : List String := []

/-- One call of a hook. -/
inductive Call
  /-- A put hook, before anything is stored. -/
  | beforePut (hook : String) (batch : List Entry)
  /-- A put hook, after the batch was stored. -/
  | afterPut (hook : String) (batch : List Entry)
  /-- A size watcher, with the totals of the queue and whether it was closed. -/
  | sizeChanged (watcher : String) (queue : StorageId) (tally : Tally) (closed : Bool)
  deriving DecidableEq

namespace Hooks

/-- The calls before a put, and whether to go on with it. -/
def beforePut (h : Hooks) (batch : List Entry) (bypass : Bool) : List Call × Bool :=
  match h.put with
  | some hook => if bypass then ([], true) else ([.beforePut hook.name batch], hook.accepts batch)
  | none => ([], true)

/-- The calls after a put. -/
def afterPut (h : Hooks) (batch : List Entry) (bypass : Bool) : List Call :=
  match h.put with
  | some hook => if bypass then [] else [.afterPut hook.name batch]
  | none => []

/-- The calls after a change. -/
def sizeChanged (h : Hooks) (queue : StorageId) (tally : Tally) (closed : Bool) : List Call :=
  h.watchers.map fun name => .sizeChanged name queue tally closed

/-- Register a size watcher. -/
def watch (h : Hooks) (name : String) : Hooks := { h with watchers := h.watchers ++ [name] }

/-- Forget all registrations of a size watcher; the second component says whether there were
any. -/
def unwatch (h : Hooks) (name : String) : Hooks × Bool :=
  ({ h with watchers := h.watchers.filter (· ≠ name) }, h.watchers.contains name)

end Hooks

end Spillway
