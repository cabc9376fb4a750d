import Spillway.Proofs.Order
import Spillway.Queue.Tally

/-!
# Exact totals

The totals of a list depend on its members alone, and taking one member off the totals gives the
totals of the others. No subtraction in a tally that is exact ever stops at zero.
-/

namespace Spillway

variable {α β : Type} [Slotted α] [Slotted β]

/-- Whether a thing must survive a restart. -/
def lasting (a : α) : Bool := (Slotted.slot a).persistent

namespace Tally

/-- Adding things one after the other adds their number and their sizes. -/
theorem addAll_eq (t : Tally) (l : List α) : t.addAll l =
    { entries := t.entries + l.length
      bytes := t.bytes + (l.map chargeOf).sum
      persistentEntries := t.persistentEntries + (l.filter lasting).length
      persistentBytes := t.persistentBytes + ((l.filter lasting).map chargeOf).sum } := by
  induction l generalizing t with
  | nil => rfl
  | cons a l ih =>
    have hs : t.addAll (a :: l) = (t.add (Slotted.slot a)).addAll l := rfl
    rw [hs, ih]
    cases hp : (Slotted.slot a).persistent <;>
      simp [add, lasting, chargeOf, hp] <;> omega

/-- The totals as sums. -/
theorem total_eq (l : List α) : total l =
    { entries := l.length
      bytes := (l.map chargeOf).sum
      persistentEntries := (l.filter lasting).length
      persistentBytes := ((l.filter lasting).map chargeOf).sum } := by
  rw [total, addAll_eq]
  simp [zero]

@[simp] theorem total_entries (l : List α) : (total l).entries = l.length := by rw [total_eq]

@[simp] theorem total_bytes (l : List α) : (total l).bytes = (l.map chargeOf).sum := by
  rw [total_eq]

/-- The order of a list does not change its totals. -/
theorem total_perm {l m : List α} (h : l.Perm m) : total l = total m := by
  rw [total_eq, total_eq, h.length_eq, (h.map chargeOf).sum_nat, (h.filter lasting).length_eq,
    ((h.filter lasting).map chargeOf).sum_nat]

/-- One more thing adds its slot. -/
theorem total_cons (a : α) (l : List α) : total (a :: l) = (total l).add (Slotted.slot a) := by
  cases hp : (Slotted.slot a).persistent <;>
    simp [total_eq, add, lasting, chargeOf, hp, Nat.add_comm]

/-- The totals after more things came. -/
theorem total_append (l m : List α) : total (l ++ m) = (total l).addAll m :=
  List.foldl_append

/-- Relabelling that keeps the slots keeps the totals. -/
theorem total_map {l : List α} {f : α → β} (hf : ∀ a ∈ l, Slotted.slot (f a) = Slotted.slot a) :
    total (l.map f) = total l := by
  induction l with
  | nil => rfl
  | cons a l ih =>
    rw [List.map_cons, total_cons, total_cons, hf a (List.mem_cons_self ..),
      ih fun b hb => hf b (List.mem_cons_of_mem _ hb)]

/-- The totals after things went are those of what is left. -/
theorem subtractAll_total {l : List β} {gone : List α} {rest : List β}
    (h : (gone.map Slotted.slot ++ rest.map Slotted.slot).Perm (l.map Slotted.slot)) :
    (total l).subtractAll gone = total rest := by
  have hslots : ∀ {γ : Type} [Slotted γ] (m : List γ), total (m.map Slotted.slot) = total m :=
    fun m => total_map fun _ _ => rfl
  rw [← hslots l, ← total_perm h]
  clear h
  induction gone with
  | nil => exact hslots rest
  | cons a gone ih =>
    rw [List.map_cons, List.cons_append, total_cons]
    change (((total _).add (Slotted.slot a)).subtract (Slotted.slot a)).subtractAll gone = _
    rw [subtract_add, ih]

/-- The totals of a list with one thing entered. -/
theorem total_insertByKey (a : α) (l : List α) :
    total (insertByKey a l) = (total l).add (Slotted.slot a) :=
  (total_perm (perm_insertOrdered servedBefore a l)).trans (total_cons a l)

/-- The totals of a list without one of its members. -/
theorem total_without {l : List α} (h : Ordered l) {a : α} (ha : a ∈ l) :
    total (l.filter fun b => decide (keyOf b ≠ keyOf a)) = (total l).subtract (Slotted.slot a) := by
  rw [total_perm (h.perm_cons_without ha), total_cons, subtract_add]

/-- Totals that have what is taken off them, one thing after the other: each could be put back. -/
def Covers (t : Tally) : List Slot → Prop
  | [] => True
  | s :: gone => (t.subtract s).add s = t ∧ (t.subtract s).Covers gone

theorem subtractAll_slots (t : Tally) (gone : List α) :
    t.subtractAll gone = t.subtractAll (gone.map Slotted.slot) := by
  rw [subtractAll, subtractAll, List.foldl_map]
  rfl

theorem addAll_slots (t : Tally) (new : List α) :
    t.addAll new = t.addAll (new.map Slotted.slot) := by
  rw [addAll, addAll, List.foldl_map]
  rfl

/-- The totals of a list cover every part of it. -/
theorem covers_total {l rest : List α} {gone : List Slot}
    (h : (gone ++ rest.map Slotted.slot).Perm (l.map Slotted.slot)) : (total l).Covers gone := by
  have hslots : ∀ l : List α, total l = total (l.map Slotted.slot) := addAll_slots zero
  rw [hslots l, ← total_perm h]
  clear h
  induction gone with
  | nil => trivial
  | cons s gone ih =>
    have hone : (total (s :: gone ++ rest.map Slotted.slot)).subtract s =
        total (gone ++ rest.map Slotted.slot) := by
      rw [List.cons_append, total_cons]
      exact subtract_add _ s
    rw [Covers, hone]
    refine ⟨?_, ih⟩
    rw [List.cons_append, total_cons]
    rfl

end Tally

end Spillway
