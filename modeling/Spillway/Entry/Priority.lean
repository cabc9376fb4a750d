import Spillway.Fault
import Spillway.Text.Blank
import Spillway.Text.Upper

/-!
# Priorities

Ten levels, 0 lowest and 9 highest. Entries of a higher level are served first.
-/

namespace Spillway

/-- A level from 0 to 9. -/
structure Priority where
  /-- The level itself. -/
  level : Fin 10
  deriving DecidableEq, Repr

namespace Priority

/-- Lowest level. -/
def lowest : Priority := ⟨0⟩

/-- Level of entries that ask for none. -/
def normal : Priority := ⟨5⟩

/-- Highest level. -/
def highest : Priority := ⟨9⟩

instance : Inhabited Priority := ⟨normal⟩

instance : LT Priority := ⟨fun a b => a.level < b.level⟩

instance : LE Priority := ⟨fun a b => a.level ≤ b.level⟩

instance (a b : Priority) : Decidable (a < b) := inferInstanceAs (Decidable (a.level < b.level))

instance (a b : Priority) : Decidable (a ≤ b) := inferInstanceAs (Decidable (a.level ≤ b.level))

/-- The level as a number. -/
def toNat (p : Priority) : Nat := p.level.val

instance : ToString Priority := ⟨fun p => toString p.toNat⟩

/-- The priority of a level; a number outside the range is a fault. -/
def ofInt (value : Int) : Except Fault Priority :=
  if h : 0 ≤ value ∧ value.toNat < 10 then .ok ⟨⟨value.toNat, h.2⟩⟩
  else .error (.priorityRange value)

/-- Read a name or a number. Blanks around it and the case of a name do not matter; a number
that needs more than eight bits is no priority at all. -/
def parse (text : String) : Except Fault Priority :=
  match Text.upper (Text.trim text) with
  | "MIN" => .ok lowest
  | "LOW" => .ok ⟨3⟩
  | "NORM" | "NORMAL" => .ok normal
  | "HIGH" => .ok ⟨7⟩
  | "MAX" => .ok highest
  | other =>
    match Text.natUpTo? 255 other with
    | some n => ofInt n
    | none => .error (.priorityText text)

/-- Every level is read back from its number. -/
theorem ofInt_toNat (p : Priority) : ofInt p.toNat = .ok p := by
  simp [ofInt, toNat]

/-- Exactly the numbers from 0 to 9 are levels. -/
theorem ofInt_eq_ok_iff {value : Int} {p : Priority} : ofInt value = .ok p ↔ value = p.toNat := by
  constructor
  · intro h
    unfold ofInt at h
    split at h
    · next hv =>
      cases h
      simp only [toNat]
      omega
    · cases h
  · rintro rfl
    exact ofInt_toNat p

end Priority

end Spillway
