import Spillway.Entry.Basic

/-!
# Windows

Which entries a read or a removal covers. A window bounds the number of entries, the bytes, or
both; a negative number stands for no bound.

* A *head window* walks the order of service from the front. It ends at the bound on entries, or
  before the entry that would bring the bytes up to the bound on bytes. The first entry is always
  taken, so an entry larger than the bound does not block the queue.
* A *tail window* walks from the back for as long as the laxer of the two bounds is not reached.
-/

namespace Spillway

/-- Bounds of a read or a removal. -/
structure Window where
  /-- Most entries, if bounded. -/
  entries : Option Nat := none
  /-- Bytes not to be reached, if bounded. -/
  bytes : Option Nat := none
  deriving DecidableEq, Repr

/-- The priorities that a head window covers. -/
inductive Band
  /-- All of them. -/
  | all
  /-- Those from `low` to `high`. -/
  | between (low high : Priority)
  /-- That of the first entry only. -/
  | ofFirst
  deriving DecidableEq, Repr

namespace Window

/-- A number as a bound: negative numbers bound nothing. -/
def bound (n : Int) : Option Nat := if n < 0 then none else some n.toNat

/-- The window with the given bounds on entries and bytes. -/
def ofInts (entries bytes : Int) : Window := ⟨bound entries, bound bytes⟩

variable {α : Type} [Slotted α]

/-- Whether `count` entries fill the window. -/
def isFull (w : Window) (count : Nat) : Bool := w.entries.any (· ≤ count)

/-- Whether an entry of `size` bytes ends a head window that holds `count` entries of `bytes`
bytes. -/
def bars (w : Window) (count bytes size : Nat) : Bool :=
  decide (0 < count) && w.bytes.any (· ≤ bytes + size)

/-- The rest of a head window that holds `count` entries of `bytes` bytes. -/
def headFrom (w : Window) (low high : Priority) (count bytes : Nat) : List α → List α
  | [] => []
  | a :: l =>
    if w.isFull count then []
    else if (keyOf a).priority < low then []
    else if high < (keyOf a).priority then headFrom w low high count bytes l
    else if w.bars count bytes (chargeOf a) then []
    else a :: headFrom w low high (count + 1) (bytes + chargeOf a) l

/-- The lowest and the highest priority of a band on a list in the order of service. -/
def limitsOf (band : Band) (l : List α) : Priority × Priority :=
  match band, l with
  | .all, _ => (.lowest, .highest)
  | .between low high, _ => (low, high)
  | .ofFirst, a :: _ => ((keyOf a).priority, (keyOf a).priority)
  | .ofFirst, [] => (.lowest, .highest)

/-- The head window on a list in the order of service. -/
def head (w : Window) (band : Band) (l : List α) : List α :=
  w.headFrom (limitsOf band l).1 (limitsOf band l).2 0 0 l

/-- Whether a tail window that holds `count` entries of `bytes` bytes takes another one. -/
def isOpen (w : Window) (count bytes : Nat) : Bool :=
  match w.entries, w.bytes with
  | none, none => true
  | none, some b => bytes < b
  | some n, none => count < n
  | some n, some b => count < n || bytes < b

/-- The rest of a tail window that holds `count` entries of `bytes` bytes; the list runs
backwards, and only what is served after the limit is covered. -/
def tailFrom (w : Window) (limit : Option Key) (count bytes : Nat) : List α → List α
  | [] => []
  | a :: l =>
    if !w.isOpen count bytes then []
    else if limit.any (keyOf a ≤ ·) then []
    else a :: tailFrom w limit (count + 1) (bytes + chargeOf a) l

/-- The tail window on a list that runs backwards. With `leaveOne` the last entry is given back
where the window would cover all of the `total` entries of the queue. -/
def tail (w : Window) (limit : Option Key) (leaveOne : Bool) (total : Nat) (l : List α) : List α :=
  let covered := w.tailFrom limit 0 0 l
  if leaveOne && covered.length == total then covered.dropLast else covered

end Window

end Spillway
