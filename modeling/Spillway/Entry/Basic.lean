import Spillway.Entry.Key
import Spillway.Text.Instant

/-!
# Entries and slots

An entry is a message that waits in a queue. Its slot is all of it that the bookkeeping of a
queue needs: the key, the charged size and whether it must survive a restart.
-/

namespace Spillway

/-- What an entry carries; queues never look inside. -/
structure Payload where
  /-- Tells the receiver how to read the content. -/
  tag : String
  /-- The content. -/
  bytes : ByteArray

instance : DecidableEq Payload
  | ⟨tag, ⟨bytes⟩⟩, ⟨tag', ⟨bytes'⟩⟩ =>
    decidable_of_decidable_of_iff (p := tag = tag' ∧ bytes = bytes') (by simp)

/-- A message in a queue. -/
structure Entry where
  /-- Identity and age. -/
  id : UInt64
  /-- Level at which it is served. -/
  priority : Priority
  /-- Bytes charged against the bounds of a queue; need not be the length of the content. -/
  size : UInt64
  /-- Whether it must survive a restart. -/
  persistent : Bool
  /-- The content. -/
  payload : Payload
  deriving DecidableEq

/-- What bookkeeping knows of an entry. -/
structure Slot where
  /-- Place in the order of service. -/
  key : Key
  /-- Charged bytes. -/
  size : UInt64
  /-- Whether the entry must survive a restart. -/
  persistent : Bool
  deriving DecidableEq, Repr

/-- Things that stand for an entry in the bookkeeping of a queue. -/
class Slotted (α : Type) where
  /-- The slot of the entry stood for. -/
  slot : α → Slot

/-- Place of a thing in the order of service. -/
def keyOf {α : Type} [Slotted α] (a : α) : Key := (Slotted.slot a).key

/-- Charged bytes of a thing. -/
def chargeOf {α : Type} [Slotted α] (a : α) : Nat := (Slotted.slot a).size.toNat

/-- Unique id of a thing. -/
def idOf {α : Type} [Slotted α] (a : α) : UInt64 := (keyOf a).id

namespace Entry

/-- Place of the entry in the order of service. -/
def key (e : Entry) : Key := ⟨e.priority, e.id⟩

/-- The entry without its content. -/
def slot (e : Entry) : Slot := ⟨e.key, e.size, e.persistent⟩

instance : Slotted Entry := ⟨Entry.slot⟩

/-- The instant at which the entry was made, if its id can be one: ids count nanoseconds since
1970, and instants end with the signed words of 64 bits. -/
def createdAt? (e : Entry) : Option String :=
  if e.id.toNat < Text.halfWords then some (Text.instantText e.id.toNat) else none

end Entry

instance : Slotted Slot := ⟨id⟩

@[simp] theorem keyOf_slot (s : Slot) : keyOf s = s.key := rfl

@[simp] theorem keyOf_entry (e : Entry) : keyOf e = e.key := rfl

@[simp] theorem idOf_entry (e : Entry) : idOf e = e.id := rfl

/-- A condition on entries, every given part of which must hold. -/
structure Filter where
  /-- Lowest level admitted. -/
  minPriority : Option Priority := none
  /-- Highest level admitted. -/
  maxPriority : Option Priority := none
  /-- Persistence asked for. -/
  persistent : Option Bool := none
  /-- Tag asked for. -/
  tag : Option String := none
  /-- Largest charged size admitted. -/
  maxSize : Option Nat := none

/-- Whether the filter admits an entry. -/
def Filter.admits (f : Filter) (e : Entry) : Bool :=
  f.minPriority.all (· ≤ e.priority) && f.maxPriority.all (e.priority ≤ ·) &&
    f.persistent.all (· == e.persistent) && f.tag.all (· == e.payload.tag) &&
    f.maxSize.all (e.size.toNat ≤ ·)

end Spillway
