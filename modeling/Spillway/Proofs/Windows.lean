import Spillway.Proofs.Order
import Spillway.Table.Statement

/-!
# Windows look at slots only

A window keeps the order of the list it is cut from, and it chooses by keys and sizes. So a window
on an index is the window on the entries that the index knows. A query may leave out what is not
within the priorities or beyond the limit of a window, and what exceeds its bound on entries.
-/

namespace Spillway

theorem Priority.not_lt {p q : Priority} : ¬ p < q ↔ q ≤ p := Fin.not_lt

theorem Priority.le_antisymm {p q : Priority} (h : p ≤ q) (h' : q ≤ p) : p = q :=
  congrArg Priority.mk (Fin.le_antisymm h h')

/-- What is served later has no higher priority. -/
theorem Key.priority_le {a b : Key} (h : a < b) : b.priority ≤ a.priority := by
  rcases h with h | ⟨h, -⟩
  · exact Fin.le_of_lt h
  · rw [h]
    exact Fin.le_refl _

theorem Statement.limited_sublist {α : Type} (bound : Option Nat) (l : List α) :
    (limited bound l).Sublist l := by
  cases bound with
  | none => exact List.Sublist.refl l
  | some n => exact List.take_sublist n l

namespace Window

section

variable {α β : Type} [Slotted α] [Slotted β]

theorem headFrom_sublist (w : Window) (low high : Priority) (count bytes : Nat) (l : List α) :
    (w.headFrom low high count bytes l).Sublist l := by
  induction l generalizing count bytes with
  | nil => exact .slnil
  | cons a l ih =>
    unfold headFrom
    split
    · exact List.nil_sublist _
    split
    · exact List.nil_sublist _
    split
    · exact (ih _ _).cons a
    split
    · exact List.nil_sublist _
    · exact (ih _ _).cons_cons a

/-- A head window keeps the order of the list. -/
theorem head_sublist (w : Window) (band : Band) (l : List α) : (w.head band l).Sublist l :=
  w.headFrom_sublist _ _ _ _ l

theorem tailFrom_sublist (w : Window) (limit : Option Key) (count bytes : Nat) (l : List α) :
    (w.tailFrom limit count bytes l).Sublist l := by
  induction l generalizing count bytes with
  | nil => exact .slnil
  | cons a l ih =>
    unfold tailFrom
    split
    · exact List.nil_sublist _
    split
    · exact List.nil_sublist _
    · exact (ih _ _).cons_cons a

/-- A tail window keeps the order of the list. -/
theorem tail_sublist (w : Window) (limit : Option Key) (leaveOne : Bool) (total : Nat)
    (l : List α) : (w.tail limit leaveOne total l).Sublist l := by
  unfold tail
  dsimp only
  split
  · exact (List.dropLast_sublist _).trans (w.tailFrom_sublist _ _ _ l)
  · exact w.tailFrom_sublist _ _ _ l

variable {f : α → β} (hf : ∀ a, Slotted.slot (f a) = Slotted.slot a)

include hf

theorem headFrom_map (w : Window) (low high : Priority) (count bytes : Nat) (l : List α) :
    w.headFrom low high count bytes (l.map f) = (w.headFrom low high count bytes l).map f := by
  induction l generalizing count bytes with
  | nil => rfl
  | cons a l ih =>
    simp only [List.map_cons, headFrom, keyOf_apply hf, chargeOf_apply hf, ih]
    split
    · rfl
    split
    · rfl
    split
    · rfl
    split
    · rfl
    · rfl

/-- A head window on things of the same slots is the same window. -/
theorem head_map (w : Window) (band : Band) (l : List α) :
    w.head band (l.map f) = (w.head band l).map f := by
  have hl : limitsOf band (l.map f) = limitsOf band l := by
    cases band with
    | all => rfl
    | between => rfl
    | ofFirst => cases l with
      | nil => rfl
      | cons a l => simp only [List.map_cons, limitsOf, keyOf_apply hf]
  rw [head, head, hl, w.headFrom_map hf]

theorem tailFrom_map (w : Window) (limit : Option Key) (count bytes : Nat) (l : List α) :
    w.tailFrom limit count bytes (l.map f) = (w.tailFrom limit count bytes l).map f := by
  induction l generalizing count bytes with
  | nil => rfl
  | cons a l ih =>
    simp only [List.map_cons, tailFrom, keyOf_apply hf, chargeOf_apply hf, ih]
    split
    · rfl
    split
    · rfl
    · rfl

/-- A tail window on things of the same slots is the same window. -/
theorem tail_map (w : Window) (limit : Option Key) (leaveOne : Bool) (total : Nat) (l : List α) :
    w.tail limit leaveOne total (l.map f) = (w.tail limit leaveOne total l).map f := by
  simp only [tail, w.tailFrom_map hf, List.length_map]
  split
  · rw [List.map_dropLast]
  · rfl

end

section

variable {α : Type} [Slotted α]

/-! ## Head windows on a query -/

/-- Whether the priority of a thing is within limits. -/
def within (low high : Priority) (a : α) : Bool :=
  decide (low ≤ (keyOf a).priority) && decide ((keyOf a).priority ≤ high)

theorem within_iff {low high : Priority} {a : α} :
    within low high a = true ↔ low ≤ (keyOf a).priority ∧ (keyOf a).priority ≤ high := by
  rw [within, Bool.and_eq_true, decide_eq_true_eq, decide_eq_true_eq]

theorem headFrom_of_full {w : Window} {low high : Priority} {count bytes : Nat} (l : List α)
    (h : w.isFull count = true) : w.headFrom low high count bytes l = [] := by
  cases l with
  | nil => rfl
  | cons a l => rw [headFrom, if_pos h]

/-- Below the lower limit there is nothing for a head window. -/
theorem filter_within_of_low {low high : Priority} {a : α} {l : List α} (h : Ascending (a :: l))
    (ha : (keyOf a).priority < low) : (a :: l).filter (within low high) = [] := by
  refine List.filter_eq_nil_iff.2 fun b hb hin => ?_
  have hle : (keyOf b).priority ≤ (keyOf a).priority := by
    rcases List.mem_cons.1 hb with rfl | hb
    · exact Fin.le_refl _
    · exact Key.priority_le ((List.pairwise_cons.1 h).1 b hb)
  exact Priority.not_lt.2 (within_iff.1 hin).1 (Fin.lt_of_le_of_lt hle ha)

/-- What is within the limits is covered if the window is not filled. -/
theorem headFrom_cons {low high : Priority} {a : α} (h : within low high a = true) (w : Window)
    (count bytes : Nat) (l : List α) : w.headFrom low high count bytes (a :: l) =
      if w.isFull count then []
      else if w.bars count bytes (chargeOf a) then []
      else a :: w.headFrom low high (count + 1) (bytes + chargeOf a) l := by
  obtain ⟨hlow, hhigh⟩ := within_iff.1 h
  rw [headFrom, if_neg (Priority.not_lt.2 hlow), if_neg (Priority.not_lt.2 hhigh)]

/-- A head window covers nothing but what is within its priorities. -/
theorem headFrom_filter (w : Window) (low high : Priority) (count bytes : Nat) {l : List α}
    (h : Ascending l) : w.headFrom low high count bytes (l.filter (within low high)) =
      w.headFrom low high count bytes l := by
  induction l generalizing count bytes with
  | nil => rfl
  | cons a l ih =>
    have hrest : Ascending l := (List.pairwise_cons.1 h).2
    by_cases hfull : w.isFull count = true
    · rw [headFrom_of_full _ hfull, headFrom_of_full _ hfull]
    cases hin : within low high a with
    | true => rw [List.filter_cons_of_pos hin, headFrom_cons hin, headFrom_cons hin, ih _ _ hrest]
    | false =>
      by_cases hlow : (keyOf a).priority < low
      · rw [filter_within_of_low h hlow, headFrom.eq_2, if_neg hfull, if_pos hlow, headFrom]
      · have hhigh : high < (keyOf a).priority := by
          by_contra hhigh
          have := within_iff.2 ⟨Priority.not_lt.1 hlow, Priority.not_lt.1 hhigh⟩
          rw [hin] at this
          cases this
        rw [List.filter_cons_of_neg (by simp [hin]), ih _ _ hrest, headFrom.eq_2, if_neg hfull,
          if_neg hlow, if_pos hhigh]

/-- A head window covers no more entries than it may. -/
theorem headFrom_take {w : Window} {n : Nat} (hn : w.entries = some n) {low high : Priority}
    {count bytes : Nat} {l : List α} (h : ∀ a ∈ l, within low high a = true) :
    w.headFrom low high count bytes (l.take (n - count)) = w.headFrom low high count bytes l := by
  induction l generalizing count bytes with
  | nil => rw [List.take_nil]
  | cons a l ih =>
    have hin := h a (List.mem_cons_self ..)
    by_cases hfull : n ≤ count
    · have hfull' : w.isFull count = true := by simp [isFull, hn, hfull]
      rw [headFrom_of_full _ hfull', headFrom_of_full _ hfull']
    · obtain ⟨k, hk⟩ : ∃ k, n - count = k + 1 := ⟨n - count - 1, by omega⟩
      have hk' : n - (count + 1) = k := by omega
      rw [hk, List.take_succ_cons, headFrom_cons hin, headFrom_cons hin, ← hk',
        ih fun b hb => h b (List.mem_cons_of_mem a hb)]

/-- The query of a head window keeps all that the window may cover. -/
theorem head_limited (w : Window) (band : Band) {l : List α} (h : Ascending l) :
    w.head band (Statement.limited w.entries
      (l.filter (within (limitsOf band l).1 (limitsOf band l).2))) = w.head band l := by
  have hkept : ∀ low high, w.headFrom low high 0 0 (Statement.limited w.entries
      (l.filter (within low high))) = w.headFrom low high 0 0 l := by
    intro low high
    cases hn : w.entries with
    | none => exact w.headFrom_filter low high 0 0 h
    | some n =>
      rw [Statement.limited, ← w.headFrom_filter low high 0 0 h]
      exact headFrom_take hn fun a ha => (List.mem_filter.1 ha).2
  cases band with
  | all => exact hkept _ _
  | between low high => exact hkept _ _
  | ofFirst =>
    have hlimits := hkept (limitsOf .ofFirst l).1 (limitsOf .ofFirst l).2
    cases hk : Statement.limited w.entries
        (l.filter (within (limitsOf .ofFirst l).1 (limitsOf .ofFirst l).2)) with
    | nil =>
      rw [hk] at hlimits
      exact hlimits
    | cons b m =>
      have hb := (Statement.limited_sublist w.entries _).subset (hk ▸ List.mem_cons_self ..)
      obtain ⟨hmem, hin⟩ := List.mem_filter.1 hb
      have hsame : limitsOf .ofFirst (b :: m) = limitsOf .ofFirst l := by
        cases l with
        | nil => cases hmem
        | cons a l =>
          obtain ⟨hle, hge⟩ := within_iff.1 hin
          exact congrArg (fun p => (p, p)) (Priority.le_antisymm hge hle)
      rw [hk] at hlimits
      rw [head, hsame]
      exact hlimits

/-! ## Tail windows on a query -/

/-- Whether a limit lets a thing be covered by a tail window. -/
def beyond (limit : Option Key) (a : α) : Bool := !limit.any (keyOf a ≤ ·)

theorem tailFrom_of_closed {w : Window} {limit : Option Key} {count bytes : Nat} (l : List α)
    (h : w.isOpen count bytes = false) : w.tailFrom limit count bytes l = [] := by
  cases l with
  | nil => rfl
  | cons a l => rw [tailFrom, if_pos (by rw [h]; rfl)]

/-- What lies beyond the limit is covered if the window is open. -/
theorem tailFrom_cons {limit : Option Key} {a : α} (h : beyond limit a = true) (w : Window)
    (count bytes : Nat) (l : List α) : w.tailFrom limit count bytes (a :: l) =
      if !w.isOpen count bytes then []
      else a :: w.tailFrom limit (count + 1) (bytes + chargeOf a) l := by
  rw [beyond, Bool.not_eq_true'] at h
  rw [tailFrom, h, if_neg Bool.false_ne_true]

/-- A tail window covers nothing but what lies beyond its limit. -/
theorem tailFrom_filter (w : Window) (limit : Option Key) (count bytes : Nat) {l : List α}
    (h : l.Pairwise fun a b => keyOf b < keyOf a) :
    w.tailFrom limit count bytes (l.filter (beyond limit)) =
      w.tailFrom limit count bytes l := by
  induction l generalizing count bytes with
  | nil => rfl
  | cons a l ih =>
    obtain ⟨hfirst, hrest⟩ := List.pairwise_cons.1 h
    cases hin : beyond limit a with
    | true => rw [List.filter_cons_of_pos hin, tailFrom_cons hin, tailFrom_cons hin, ih _ _ hrest]
    | false =>
      have hstop : limit.any (keyOf a ≤ ·) = true := by simpa [beyond] using hin
      have hnone : (a :: l).filter (beyond limit) = [] := by
        rw [List.filter_cons_of_neg (by simp [hin]), List.filter_eq_nil_iff]
        intro b hb
        cases limit with
        | none => cases hstop
        | some key =>
          have hle : keyOf a ≤ key := of_decide_eq_true hstop
          have hle' : keyOf b ≤ key := fun hlt => hle (Key.lt_trans hlt (hfirst b hb))
          simp [beyond, hle']
      rw [hnone, tailFrom.eq_2, if_pos hstop, ite_self, tailFrom]

/-- On what lies beyond its limit a tail window does without one. -/
theorem tailFrom_unlimited (w : Window) {limit : Option Key} (count bytes : Nat) {l : List α}
    (h : ∀ a ∈ l, beyond limit a = true) :
    w.tailFrom limit count bytes l = w.tailFrom none count bytes l := by
  induction l generalizing count bytes with
  | nil => rfl
  | cons a l ih =>
    rw [tailFrom_cons (h a (List.mem_cons_self ..)),
      tailFrom_cons (show beyond none a = true from rfl),
      ih _ _ fun b hb => h b (List.mem_cons_of_mem a hb)]

/-- A tail window with a limit is the window on what is served after the limit. -/
theorem tail_some (w : Window) (limit : Key) (leaveOne : Bool) (total : Nat) {l : List α}
    (h : l.Pairwise fun a b => keyOf b < keyOf a) : w.tail (some limit) leaveOne total l =
      w.tail none leaveOne total (l.filter fun a => decide (limit < keyOf a)) := by
  have hbeyond : (fun a : α => decide (limit < keyOf a)) = beyond (some limit) := funext fun a => by
    change decide (limit < keyOf a) = !decide (¬ limit < keyOf a)
    rw [decide_not, Bool.not_not]
  have hcovered : w.tailFrom (some limit) 0 0 l =
      w.tailFrom none 0 0 (l.filter fun a => decide (limit < keyOf a)) := by
    rw [hbeyond, ← w.tailFrom_filter (some limit) 0 0 h]
    exact w.tailFrom_unlimited 0 0 fun a ha => (List.mem_filter.1 ha).2
  rw [tail, tail, hcovered]

/-- A tail window without a bound on bytes covers no more entries than it may. -/
theorem tailFrom_take {w : Window} {n : Nat} (hn : w.entries = some n) (hb : w.bytes = none)
    {limit : Option Key} {count bytes : Nat} {l : List α} (h : ∀ a ∈ l, beyond limit a = true) :
    w.tailFrom limit count bytes (l.take (n - count)) = w.tailFrom limit count bytes l := by
  induction l generalizing count bytes with
  | nil => rw [List.take_nil]
  | cons a l ih =>
    have hin := h a (List.mem_cons_self ..)
    by_cases hfull : n ≤ count
    · have hclosed : w.isOpen count bytes = false := by simp [isOpen, hn, hb, hfull]
      rw [tailFrom_of_closed _ hclosed, tailFrom_of_closed _ hclosed]
    · obtain ⟨k, hk⟩ : ∃ k, n - count = k + 1 := ⟨n - count - 1, by omega⟩
      have hk' : n - (count + 1) = k := by omega
      rw [hk, List.take_succ_cons, tailFrom_cons hin, tailFrom_cons hin, ← hk',
        ih fun b hb => h b (List.mem_cons_of_mem a hb)]

/-- The query of a tail window keeps all that the window may cover. -/
theorem tail_limited (w : Window) (limit : Option Key) (leaveOne : Bool) (total : Nat) {l : List α}
    (h : l.Pairwise fun a b => keyOf b < keyOf a) :
    w.tail limit leaveOne total (Statement.limited (if w.bytes.isNone then w.entries else none)
      (l.filter (beyond limit))) = w.tail limit leaveOne total l := by
  have hkept : w.tailFrom limit 0 0 (Statement.limited
      (if w.bytes.isNone then w.entries else none) (l.filter (beyond limit))) =
      w.tailFrom limit 0 0 l := by
    rw [← w.tailFrom_filter limit 0 0 h]
    cases hb : w.bytes with
    | some b => rfl
    | none =>
      cases hn : w.entries with
      | none => rfl
      | some n => exact tailFrom_take hn hb fun a ha => (List.mem_filter.1 ha).2
  rw [tail, hkept]
  rfl

end

end Window

end Spillway
