import Spillway.Entry.Basic
import Spillway.Queue.Bounds

/-!
# Tallies

The running totals of a queue. They follow every entry that comes or goes, so that the size of
a queue is known without counting. A total never falls below zero.

Totals are numbers without bound here, where the program adds words of 64 bits. The two agree as
long as the bytes of all entries of a queue together are such a word.
-/

namespace Spillway

/-- Totals over the entries of a queue. -/
structure Tally where
  /-- Number of entries. -/
  entries : Nat := 0
  /-- Charged bytes of all entries. -/
  bytes : Nat := 0
  /-- Number of persistent entries. -/
  persistentEntries : Nat := 0
  /-- Charged bytes of the persistent entries. -/
  persistentBytes : Nat := 0
  deriving DecidableEq, Repr

namespace Tally

/-- The totals of an empty queue. -/
def zero : Tally := {}

instance : Inhabited Tally := ⟨zero⟩

/-- Totals after an entry came. The sums do not overflow; those of bytes would in words of 64 bits
that they exceed. -/
def add (t : Tally) (s : Slot) : Tally :=
  { entries := t.entries + 1
    bytes := t.bytes + s.size.toNat
    persistentEntries := if s.persistent then t.persistentEntries + 1 else t.persistentEntries
    persistentBytes :=
      if s.persistent then t.persistentBytes + s.size.toNat else t.persistentBytes }

/-- Totals after an entry went. -/
def subtract (t : Tally) (s : Slot) : Tally :=
  { entries := t.entries - 1
    bytes := t.bytes - s.size.toNat
    persistentEntries := if s.persistent then t.persistentEntries - 1 else t.persistentEntries
    persistentBytes :=
      if s.persistent then t.persistentBytes - s.size.toNat else t.persistentBytes }

/-- Totals of two disjoint sets of entries. -/
def combine (a b : Tally) : Tally :=
  ⟨a.entries + b.entries, a.bytes + b.bytes, a.persistentEntries + b.persistentEntries,
    a.persistentBytes + b.persistentBytes⟩

/-- Totals after many entries came. -/
def addAll {α : Type} [Slotted α] (t : Tally) (l : List α) : Tally :=
  l.foldl (fun t a => t.add (Slotted.slot a)) t

/-- Totals after many entries went. -/
def subtractAll {α : Type} [Slotted α] (t : Tally) (l : List α) : Tally :=
  l.foldl (fun t a => t.subtract (Slotted.slot a)) t

/-- The exact totals of a list. -/
def total {α : Type} [Slotted α] (l : List α) : Tally := zero.addAll l

/-- An entry that came and went leaves no trace. -/
theorem subtract_add (t : Tally) (s : Slot) : (t.add s).subtract s = t := by
  cases t; cases h : s.persistent <;> simp [add, subtract, h]

/-- The bound that the totals exceed, if any; entries are looked at first. -/
def overflow? (t : Tally) (b : Bounds) : Option Overflow :=
  if b.entries < t.entries then some (.entries b.entries t.entries)
  else if b.bytes < t.bytes then some (.bytes b.bytes t.bytes)
  else none

/-- A queue is within its bounds unless it has more entries or more bytes than they allow. -/
theorem overflow?_eq_none_iff {t : Tally} {b : Bounds} :
    t.overflow? b = none ↔ t.entries ≤ b.entries ∧ t.bytes ≤ b.bytes := by
  unfold overflow?
  split
  · simp; omega
  · split
    · simp; omega
    · simp; omega

end Tally

end Spillway
