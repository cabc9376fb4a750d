import Spillway.Entry.Priority

/-!
# Keys

A key is a place in the order in which a queue is served: higher priority first, and among
equals the smaller, older id. The order is total, so a queue has exactly one order of service.
-/

namespace Spillway

/-- The place of an entry in the order of service. -/
structure Key where
  /-- Level of the entry. -/
  priority : Priority
  /-- Unique id of the entry; smaller ids are older. -/
  id : UInt64
  deriving DecidableEq, Repr

namespace Key

/-- The first key is served before the second. -/
instance : LT Key := ⟨fun a b => b.priority < a.priority ∨ a.priority = b.priority ∧ a.id < b.id⟩

/-- The first key is not served after the second. -/
instance : LE Key := ⟨fun a b => ¬ b < a⟩

instance (a b : Key) : Decidable (a < b) :=
  inferInstanceAs (Decidable (b.priority < a.priority ∨ a.priority = b.priority ∧ a.id < b.id))

instance (a b : Key) : Decidable (a ≤ b) := inferInstanceAs (Decidable (¬ b < a))

/-- How two keys stand to each other. -/
def order (a b : Key) : Ordering :=
  if a < b then .lt else if b < a then .gt else .eq

/-- The order of keys in plain numbers. -/
theorem lt_iff {a b : Key} : a < b ↔
    b.priority.toNat < a.priority.toNat ∨
      a.priority.toNat = b.priority.toNat ∧ a.id.toNat < b.id.toNat := by
  have hp : a.priority = b.priority ↔ a.priority.toNat = b.priority.toNat := by
    constructor
    · intro h; rw [h]
    · intro h
      cases ha : a.priority with | mk x => cases hb : b.priority with | mk y =>
        simp only [ha, hb, Priority.toNat] at h
        exact congrArg Priority.mk (Fin.ext h)
  show (b.priority.level < a.priority.level ∨ a.priority = b.priority ∧ a.id < b.id) ↔ _
  rw [hp, Fin.lt_def, UInt64.lt_iff_toNat_lt]
  rfl

theorem lt_irrefl (a : Key) : ¬ a < a := by
  rw [lt_iff]; omega

theorem lt_trans {a b c : Key} (hab : a < b) (hbc : b < c) : a < c := by
  rw [lt_iff] at *; omega

theorem lt_asymm {a b : Key} (h : a < b) : ¬ b < a := fun h' => lt_irrefl a (lt_trans h h')

/-- Of two different keys one is served before the other. -/
theorem lt_trichotomy (a b : Key) : a < b ∨ a = b ∨ b < a := by
  by_cases h : a = b
  · exact .inr (.inl h)
  · have hne : a.priority.toNat ≠ b.priority.toNat ∨ a.id.toNat ≠ b.id.toNat := by
      by_cases hp : a.priority.toNat = b.priority.toNat
      · refine .inr fun hid => h ?_
        cases a with | mk ap ai => cases b with | mk bp bi =>
          have : ai = bi := UInt64.toNat.inj hid
          cases ap with | mk x => cases bp with | mk y =>
            simp only [Priority.toNat] at hp
            rw [this, Fin.ext hp]
      · exact .inl hp
    rw [lt_iff, lt_iff]
    omega

theorem le_iff_lt_or_eq {a b : Key} : a ≤ b ↔ a < b ∨ a = b := by
  show ¬ b < a ↔ _
  constructor
  · intro h
    rcases lt_trichotomy a b with h' | h' | h'
    · exact .inl h'
    · exact .inr h'
    · exact absurd h' h
  · rintro (h | rfl)
    · exact lt_asymm h
    · exact lt_irrefl a

end Key

end Spillway
