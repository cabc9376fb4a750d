import Spillway.Entry.Basic

/-!
# Sorting

Sorting by a strict order, and the order of service as a special case. Main statements: sorting
keeps the members, and after it nothing stands before what it should follow.
-/

namespace Spillway

variable {α : Type}

/-- Put a thing in front of the first one that does not come before it. -/
def insertOrdered (before : α → α → Bool) (a : α) : List α → List α
  | [] => [a]
  | b :: l => if before b a then b :: insertOrdered before a l else a :: b :: l

/-- The list in the given order; equals keep their places. -/
def sortOrdered (before : α → α → Bool) (l : List α) : List α :=
  l.foldr (insertOrdered before) []

theorem perm_insertOrdered (before : α → α → Bool) (a : α) (l : List α) :
    (insertOrdered before a l).Perm (a :: l) := by
  induction l with
  | nil => exact .refl _
  | cons b l ih =>
    unfold insertOrdered
    split
    · exact (ih.cons b).trans (.swap a b l)
    · exact .refl _

/-- Sorting keeps the members and their number. -/
theorem perm_sortOrdered (before : α → α → Bool) (l : List α) :
    (sortOrdered before l).Perm l := by
  induction l with
  | nil => exact .refl _
  | cons a l ih => exact (perm_insertOrdered before a _).trans (ih.cons a)

theorem pairwise_insertOrdered {before : α → α → Bool}
    (asymm : ∀ x y, before x y = true → before y x = false)
    (trans : ∀ x y z, before y x = false → before z y = false → before z x = false)
    (a : α) {l : List α} (h : l.Pairwise fun x y => before y x = false) :
    (insertOrdered before a l).Pairwise fun x y => before y x = false := by
  induction l with
  | nil => simp [insertOrdered]
  | cons b l ih =>
    rw [List.pairwise_cons] at h
    unfold insertOrdered
    split
    · next hb =>
      refine List.pairwise_cons.2 ⟨fun x hx => ?_, ih h.2⟩
      rcases List.mem_cons.1 ((perm_insertOrdered before a l).mem_iff.1 hx) with rfl | hx
      · exact asymm _ _ hb
      · exact h.1 x hx
    · next hb =>
      have hb : before b a = false := by simpa using hb
      refine List.pairwise_cons.2 ⟨fun x hx => ?_, List.pairwise_cons.2 h⟩
      rcases List.mem_cons.1 hx with rfl | hx
      · exact hb
      · exact trans _ _ _ hb (h.1 x hx)

/-- After sorting nothing stands before what it should follow. -/
theorem pairwise_sortOrdered {before : α → α → Bool}
    (asymm : ∀ x y, before x y = true → before y x = false)
    (trans : ∀ x y z, before y x = false → before z y = false → before z x = false)
    (l : List α) : (sortOrdered before l).Pairwise fun x y => before y x = false := by
  induction l with
  | nil => exact .nil
  | cons a l ih => exact pairwise_insertOrdered asymm trans a ih

variable [Slotted α]

/-- Whether the first thing is served before the second. -/
def servedBefore (a b : α) : Bool := keyOf a < keyOf b

/-- Enter a thing into a list in the order of service. -/
def insertByKey (a : α) (l : List α) : List α := insertOrdered servedBefore a l

/-- The list in the order of service. -/
def sortByKey (l : List α) : List α := sortOrdered servedBefore l

/-- Every key is served before those after it. -/
def Ascending (l : List α) : Prop := l.Pairwise fun a b => keyOf a < keyOf b

/-- After sorting by key no later key stands before an earlier one. -/
theorem pairwise_sortByKey (l : List α) :
    (sortByKey l).Pairwise fun a b => keyOf a ≤ keyOf b := by
  refine (@pairwise_sortOrdered _ servedBefore ?_ ?_ l).imp ?_
  · intro x y h
    simpa [servedBefore] using Key.lt_asymm (of_decide_eq_true h)
  · intro x y z hxy hyz
    simp only [servedBefore, decide_eq_false_iff_not] at *
    intro hzx
    rcases Key.lt_trichotomy (keyOf y) (keyOf z) with h | h | h
    · exact hxy (Key.lt_trans h hzx)
    · exact hxy (h ▸ hzx)
    · exact hyz h
  · intro a b h
    exact of_decide_eq_false h

end Spillway
