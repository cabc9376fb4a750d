import Spillway.Queue.Cached

/-!
# The contract of queues

What every kind of queue can be asked, the same for all. The kinds differ in where entries live
and in what they do while the database cannot be used, not in what they answer.
-/

namespace Spillway

/-- What a queue can be asked. -/
inductive Request
  /-- Become active. -/
  | start
  /-- Close, keeping everything. -/
  | shutdown
  /-- Give up everything for good. -/
  | destroy
  /-- Store the entries of a batch whose ids are new. With `bypass` the put hook is not called. -/
  | put (batch : List Entry) (bypass : Bool)
  /-- The entries of a head window. -/
  | peek (window : Window) (band : Band)
  /-- The first entry. -/
  | peekFirst
  /-- The entries served before a stored one. -/
  | peekBefore (limit : Option Entry)
  /-- The entries of a tail window. -/
  | peekLowest (window : Window) (limit : Option Entry) (leaveOne : Bool)
  /-- Take a tail window. -/
  | takeLowest (window : Window) (limit : Option Entry) (leaveOne : Bool)
  /-- Take a head window of some priorities. -/
  | take (window : Window) (low high : Priority)
  /-- Remove the first entries. -/
  | removeFirst (count : Nat)
  /-- Remove entries by their ids. -/
  | removeListed (entries : List Entry)
  /-- Remove a head window of some priorities. -/
  | removeWindow (window : Window) (low high : Priority)
  /-- Remove what is served before an entry, or up to it. -/
  | removeUpTo (limit : Entry) (inclusive : Bool)
  /-- Remove the entries that need not survive a restart. -/
  | removeTransient
  /-- Remove all entries. -/
  | clear
  /-- The ids in the order of service. -/
  | references
  /-- The entries that a condition admits. -/
  | select (admits : Entry → Bool)

/-- What a queue answers. -/
inductive Reply
  | done
  | entries (entries : List Entry)
  | entry (entry : Option Entry)
  | count (count : Nat)
  | ids (ids : List UInt64)
  deriving DecidableEq

/-- A kind of queue that can be asked everything. -/
class Contract (Q : Type) extends Managed Q where
  start : Action (Desk Q) Unit
  shutdown : Action (Desk Q) Unit
  destroy : Action (Desk Q) Unit
  put : List Entry → Bool → Action (Desk Q) Unit
  peek : Window → Band → Action (Desk Q) (List Entry)
  peekBefore : Option Entry → Action (Desk Q) (List Entry)
  peekLowest : Window → Option Entry → Bool → Action (Desk Q) (List Entry)
  takeLowest : Window → Option Entry → Bool → Action (Desk Q) (List Entry)
  take : Window → Priority → Priority → Action (Desk Q) (List Entry)
  removeFirst : Nat → Action (Desk Q) Nat
  removeListed : List Entry → Action (Desk Q) Nat
  removeWindow : Window → Priority → Priority → Action (Desk Q) Nat
  removeUpTo : Entry → Bool → Action (Desk Q) Nat
  removeTransient : Action (Desk Q) Nat
  clear : Action (Desk Q) Nat
  references : Action (Desk Q) (List UInt64)
  select : (Entry → Bool) → Action (Desk Q) (List Entry)
  /-- The same queue with other hooks. -/
  withHooks : Hooks → Q → Q

instance : Contract Ram where
  start := Ram.start
  shutdown := Ram.shutdown
  destroy := Ram.destroy
  put := Ram.put
  peek := Ram.peek
  peekBefore := Ram.peekBefore
  peekLowest := Ram.peekLowest
  takeLowest := Ram.takeLowest
  take := Ram.take
  removeFirst := Ram.removeFirst
  removeListed := Ram.removeListed
  removeWindow := Ram.removeWindow
  removeUpTo := Ram.removeUpTo
  removeTransient := Ram.removeTransient
  clear := Ram.clear
  references := Ram.references
  select := Ram.select
  withHooks hooks q := { q with hooks }

instance : Contract Durable where
  start := Durable.start
  shutdown := Durable.shutdown
  destroy := Durable.destroy
  put := Durable.put
  peek := Durable.peek
  peekBefore := Durable.peekBefore
  peekLowest := Durable.peekLowest
  takeLowest := Durable.takeLowest
  take := Durable.take
  removeFirst := Durable.removeFirst
  removeListed := Durable.removeListed
  removeWindow := Durable.removeWindow
  removeUpTo := Durable.removeUpTo
  removeTransient := Durable.removeTransient
  clear := Durable.clear
  references := Durable.references
  select := Durable.select
  withHooks hooks q := { q with hooks }

instance : Contract Cached where
  start := Cached.start
  shutdown := Cached.shutdown
  destroy := Cached.destroy
  put := Cached.put
  peek := Cached.peek
  peekBefore := Cached.peekBefore
  peekLowest := Cached.peekLowest
  takeLowest := Cached.takeLowest
  take := Cached.take
  removeFirst := Cached.removeFirst
  removeListed := Cached.removeListed
  removeWindow := Cached.removeWindow
  removeUpTo := Cached.removeUpTo
  removeTransient := Cached.removeTransient
  clear := Cached.clear
  references := Cached.references
  select := Cached.select
  withHooks hooks q := { q with hooks }

/-- Answer a request. -/
def serve {Q : Type} [Contract Q] : Request → Action (Desk Q) Reply
  | .start => do Contract.start; return .done
  | .shutdown => do Contract.shutdown; return .done
  | .destroy => do Contract.destroy; return .done
  | .put batch bypass => do Contract.put batch bypass; return .done
  | .peek window band => return .entries (← Contract.peek window band)
  | .peekFirst => return .entry (← Contract.peek { entries := some 1 } .all).head?
  | .peekBefore limit => return .entries (← Contract.peekBefore limit)
  | .peekLowest window limit leaveOne =>
    return .entries (← Contract.peekLowest window limit leaveOne)
  | .takeLowest window limit leaveOne =>
    return .entries (← Contract.takeLowest window limit leaveOne)
  | .take window low high => return .entries (← Contract.take window low high)
  | .removeFirst count => return .count (← Contract.removeFirst count)
  | .removeListed entries => return .count (← Contract.removeListed entries)
  | .removeWindow window low high => return .count (← Contract.removeWindow window low high)
  | .removeUpTo limit inclusive => return .count (← Contract.removeUpTo limit inclusive)
  | .removeTransient => return .count (← Contract.removeTransient)
  | .clear => return .count (← Contract.clear)
  | .references => return .ids (← Contract.references)
  | .select admits => return .entries (← Contract.select admits)

/-- Answer many requests, one after the other, whether or not some fail. -/
def serveAll {Q : Type} [Contract Q] (requests : List Request) (d : Desk Q) :
    List (Except Fault Reply) × Desk Q :=
  match requests with
  | [] => ([], d)
  | request :: requests =>
    let (outcome, d) := (serve request).on d
    let (outcomes, d) := serveAll requests d
    (outcome :: outcomes, d)

end Spillway
