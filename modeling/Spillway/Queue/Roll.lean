import Spillway.Entry.Sort
import Spillway.Queue.Tally

/-!
# Rolls

The ordered contents of a queue with two summaries that are kept up to date on every change:
where each unique id stands, and the totals. No two things on a roll have the same id.
-/

namespace Spillway

/-- Ordered contents, with the place of each id and the totals. -/
structure Roll (α : Type) where
  /-- The contents in the order of service. -/
  items : List α := []
  /-- The key of each id. -/
  places : List (UInt64 × Key) := []
  /-- The totals. -/
  tally : Tally := {}

namespace Roll

variable {α : Type} [Slotted α]

/-- Nothing at all. -/
def empty : Roll α := {}

/-- The key under which an id stands. -/
def place? (r : Roll α) (id : UInt64) : Option Key := r.places.lookup id

/-- Whether an id stands on the roll. -/
def holds (r : Roll α) (id : UInt64) : Bool := (r.place? id).isSome

/-- What stands under a key. -/
def atKey? (r : Roll α) (key : Key) : Option α := r.items.find? (keyOf · = key)

/-- What has an id. -/
def get? (r : Roll α) (id : UInt64) : Option α := (r.place? id).bind r.atKey?

/-- Enter a thing; one whose id is there already changes nothing. -/
def insert (r : Roll α) (a : α) : Roll α :=
  if r.holds (idOf a) then r
  else
    { items := insertByKey a r.items
      places := (idOf a, keyOf a) :: r.places
      tally := r.tally.add (Slotted.slot a) }

/-- Enter many things, one after the other. -/
def insertAll (r : Roll α) (l : List α) : Roll α := l.foldl insert r

/-- Strike out what stands under a key. -/
def remove (r : Roll α) (key : Key) : Roll α :=
  match r.atKey? key with
  | none => r
  | some a =>
    { items := r.items.filter (keyOf · ≠ key)
      places := r.places.filter (·.1 ≠ idOf a)
      tally := r.tally.subtract (Slotted.slot a) }

/-- Strike out what stands under the given keys, one after the other; the first component is
what was struck out. -/
def take (r : Roll α) : List Key → List α × Roll α
  | [] => ([], r)
  | key :: keys =>
    let (taken, rest) := (r.remove key).take keys
    match r.atKey? key with
    | some a => (a :: taken, rest)
    | none => (taken, rest)

/-- Strike out what has the given ids, one after the other; the first component is what was
struck out. -/
def takeIds (r : Roll α) : List UInt64 → List α × Roll α
  | [] => ([], r)
  | id :: ids =>
    match r.place? id with
    | none => r.takeIds ids
    | some key =>
      let (taken, rest) := (r.remove key).takeIds ids
      match r.atKey? key with
      | some a => (a :: taken, rest)
      | none => (taken, rest)

/-- Change what has an id; the change must keep its slot. -/
def update (r : Roll α) (id : UInt64) (change : α → α) : Roll α :=
  match r.place? id with
  | none => r
  | some key => { r with items := r.items.map fun a => if keyOf a = key then change a else a }

/-- The unique ids in the order of service. -/
def ids (r : Roll α) : List UInt64 := r.items.map idOf

/-- What is served before a key. -/
def before (r : Roll α) (key : Key) : List α := r.items.filter (keyOf · < key)

/-- What is not served after a key. -/
def upTo (r : Roll α) (key : Key) : List α := r.items.filter (keyOf · ≤ key)

/-- What has the given ids, in the order of service. -/
def pick (r : Roll α) (ids : List UInt64) : List α := sortByKey (ids.filterMap r.get?)

end Roll

end Spillway
