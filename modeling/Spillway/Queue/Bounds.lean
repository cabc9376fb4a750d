import Spillway.Fault

/-!
# Bounds

How much a queue may hold before it refuses further puts, and how much of that a cached queue
keeps in memory.
-/

namespace Spillway

/-- The bounds of a queue. -/
structure Bounds where
  /-- Entries in the whole queue. -/
  entries : Nat := 1000
  /-- Bytes in the whole queue. -/
  bytes : Nat := 10485760
  /-- Entries in memory. -/
  cacheEntries : Nat := 1000
  /-- Bytes in memory. -/
  cacheBytes : Nat := 2097152
  deriving DecidableEq, Repr

namespace Bounds

/-- The standard bounds. -/
def standard : Bounds := {}

/-- Bounds on the whole queue, with the standard cache bounds as far as they fit inside. -/
def ofOuter (entries bytes : Nat) : Bounds :=
  { entries, bytes
    cacheEntries := min standard.cacheEntries entries
    cacheBytes := min standard.cacheBytes bytes }

/-- The same outer bounds around other cache bounds. -/
def withCache (b : Bounds) (entries bytes : Nat) : Bounds :=
  { b with cacheEntries := entries, cacheBytes := bytes }

/-- The bounds of the part of a queue that is kept in memory, taken as a queue of its own. -/
def hot (b : Bounds) : Bounds := ⟨b.cacheEntries, b.cacheBytes, b.cacheEntries, b.cacheBytes⟩

/-- The cache bounds lie inside the outer bounds. -/
def Consistent (b : Bounds) : Prop := b.cacheEntries ≤ b.entries ∧ b.cacheBytes ≤ b.bytes

instance (b : Bounds) : Decidable b.Consistent :=
  inferInstanceAs (Decidable (b.cacheEntries ≤ b.entries ∧ b.cacheBytes ≤ b.bytes))

/-- Refuse bounds that are not consistent; entries are looked at first. -/
def validate (b : Bounds) : Except Fault Unit :=
  if b.entries < b.cacheEntries then .error (.cacheEntries b.cacheEntries b.entries)
  else if b.bytes < b.cacheBytes then .error (.cacheBytes b.cacheBytes b.bytes)
  else .ok ()

/-- Exactly consistent bounds are accepted. -/
theorem validate_eq_ok_iff {b : Bounds} : b.validate = .ok () ↔ b.Consistent := by
  unfold validate Consistent
  split
  · simp; omega
  · split
    · simp; omega
    · simp; omega

theorem ofOuter_consistent (entries bytes : Nat) : (ofOuter entries bytes).Consistent :=
  ⟨Nat.min_le_right _ _, Nat.min_le_right _ _⟩

theorem hot_consistent (b : Bounds) : b.hot.Consistent := ⟨Nat.le_refl _, Nat.le_refl _⟩

end Bounds

end Spillway
