import Spillway.Queue.Bounds
import Spillway.Queue.Roll

/-!
# Residents

What a cached queue remembers of each of its entries: whether it is kept in memory, and whether
the table has its row. The hot entries are always the first ones, as many as the cache bounds
allow.
-/

namespace Spillway

/-- Where an entry is kept. -/
inductive Tier
  /-- In memory, perhaps with a row as well. -/
  | hot
  /-- In the table only. -/
  | cold
  deriving DecidableEq, Repr

/-- An entry of a cached queue as its index knows it. -/
structure Resident where
  /-- The entry without its content. -/
  slot : Slot
  /-- Where it is kept. -/
  tier : Tier
  /-- Whether the table has its row; always so for a cold entry. -/
  stored : Bool
  deriving DecidableEq, Repr

namespace Resident

instance : Slotted Resident := ⟨Resident.slot⟩

/-- Whether the entry is kept in memory. -/
def isHot (r : Resident) : Bool := r.tier = .hot

/-- Whether the entry is kept in the table only. -/
def isCold (r : Resident) : Bool := r.tier = .cold

/-- Whether the entry must survive a restart but has no row yet. -/
def isPending (r : Resident) : Bool := r.slot.persistent && !r.stored

/-- The entry, kept in memory from now on. -/
def heated (r : Resident) : Resident := { r with tier := .hot }

/-- The entry, kept in the table only from now on. -/
def cooled (r : Resident) : Resident := { r with tier := .cold, stored := true }

/-- The entry, now that the table has its row. -/
def written (r : Resident) : Resident := { r with stored := true }

end Resident

/-- Whether memory that holds `entries` entries of `bytes` bytes has room for `size` more. The bytes
are added as numbers without bound. The program adds words of 64 bits and takes the largest one for
a sum that is none, which is the same while `bytes + size` is a word. -/
def Bounds.hasRoom (b : Bounds) (entries bytes size : Nat) : Bool :=
  entries < b.cacheEntries && bytes + size ≤ b.cacheBytes

/-- Cut a list at the first thing for which memory that holds `entries` entries of `bytes` bytes
has no room. -/
def Bounds.fill {α : Type} [Slotted α] (b : Bounds) (entries bytes : Nat) :
    List α → List α × List α
  | [] => ([], [])
  | a :: l =>
    if b.hasRoom entries bytes (chargeOf a) then
      let (kept, rest) := b.fill (entries + 1) (bytes + chargeOf a) l
      (a :: kept, rest)
    else ([], a :: l)

/-- A cut list is put together from its parts. -/
theorem Bounds.fill_append {α : Type} [Slotted α] (b : Bounds) (entries bytes : Nat) (l : List α) :
    (b.fill entries bytes l).1 ++ (b.fill entries bytes l).2 = l := by
  induction l generalizing entries bytes with
  | nil => rfl
  | cons a l ih =>
    unfold Bounds.fill
    split
    · simp [ih]
    · rfl

end Spillway
