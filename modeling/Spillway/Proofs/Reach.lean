import Spillway.Proofs.Windows

/-!
# How far windows reach

A window is cut by a walk that keeps count. Here is what comes of the walk, said without it: a
window is known by its prefixes. Those of a head window are the prefixes of what it may cover that
are within its bounds. Those of a tail window are the ones whose last entry was still to be covered,
since the laxer bound was not reached before it.
-/

namespace Spillway

/-- The things of a list within a band of priorities. -/
def Band.among {α : Type} [Slotted α] (band : Band) (l : List α) : List α :=
  match band with
  | .all => l
  | .between low high =>
    l.filter fun a => decide (low ≤ (keyOf a).priority ∧ (keyOf a).priority ≤ high)
  | .ofFirst =>
    l.filter fun a => l.head?.any fun first => decide ((keyOf a).priority = (keyOf first).priority)

namespace Window

variable {α : Type} [Slotted α]

/-- A prefix that a head window may have: no more entries than its bound, and bytes below its bound
unless it is a single entry. -/
def Fits (w : Window) (p : List α) : Prop :=
  (∀ n, w.entries = some n → p.length ≤ n) ∧
    ∀ b, w.bytes = some b → p.length ≤ 1 ∨ (p.map chargeOf).sum < b

/-- A prefix after which a tail window goes on: not both bounds are reached, or there are none. -/
def GoesOn (w : Window) (p : List α) : Prop :=
  w.entries = none ∧ w.bytes = none ∨ (∃ n, w.entries = some n ∧ p.length < n) ∨
    ∃ b, w.bytes = some b ∧ (p.map chargeOf).sum < b

/-- The head window on what it may cover. -/
def IsHead (w : Window) (l m : List α) : Prop := ∀ p, p <+: m ↔ p <+: l ∧ w.Fits p

/-- The tail window on what it may cover, from the back. -/
def IsTail (w : Window) (l m : List α) : Prop :=
  ∀ p, p <+: m ↔ p <+: l ∧ (p = [] ∨ w.GoesOn p.dropLast)

/-! ## Head windows -/

theorem isFull_eq_false_iff {w : Window} {count : Nat} :
    w.isFull count = false ↔ ∀ n, w.entries = some n → count < n := by
  cases hn : w.entries <;> simp [isFull, hn]

theorem bars_eq_false_iff {w : Window} {count bytes size : Nat} :
    w.bars count bytes size = false ↔
      ∀ b, w.bytes = some b → count = 0 ∨ bytes + size < b := by
  cases hb : w.bytes with
  | none => simp [bars, hb]
  | some b =>
    simp only [bars, hb, Option.any_some, Option.some.injEq, forall_eq', Bool.and_eq_false_iff,
      decide_eq_false_iff_not]
    omega

theorem within_all (a : α) : within .lowest .highest a = true :=
  within_iff.2 ⟨Nat.zero_le _, Nat.le_of_lt_succ (Fin.is_lt _)⟩

/-- What is within the limits of a band is what the band is about. -/
theorem filter_within_eq (band : Band) (l : List α) :
    l.filter (within (limitsOf band l).1 (limitsOf band l).2) = band.among l := by
  cases band with
  | all => exact List.filter_eq_self.2 fun a _ => within_all a
  | between low high =>
    refine List.filter_congr fun a _ => ?_
    rw [Bool.eq_iff_iff, within_iff, decide_eq_true_eq]
    rfl
  | ofFirst =>
    cases l with
    | nil => rfl
    | cons first l =>
      simp only [limitsOf, Band.among]
      refine List.filter_congr fun a _ => ?_
      rw [Bool.eq_iff_iff, within_iff, List.head?_cons, Option.any_some, decide_eq_true_eq]
      constructor
      · rintro ⟨hlow, hhigh⟩
        exact Priority.le_antisymm hhigh hlow
      · intro ha
        rw [ha]
        exact ⟨Fin.le_refl _, Fin.le_refl _⟩

/-- A head window covers an entry if the window is not filled and the entry does not end it. -/
theorem cons_prefix_headFrom {w : Window} {low high : Priority} {a b : α} {l p : List α}
    {count bytes : Nat} (ha : within low high a = true) :
    b :: p <+: w.headFrom low high count bytes (a :: l) ↔
      b = a ∧ w.isFull count = false ∧ w.bars count bytes (chargeOf a) = false ∧
        p <+: w.headFrom low high (count + 1) (bytes + chargeOf a) l := by
  rw [headFrom_cons ha]
  cases w.isFull count with
  | true => simp
  | false =>
    cases w.bars count bytes (chargeOf a) with
    | true => simp
    | false => simp [List.cons_prefix_cons]

/-- The prefixes of the rest of a head window. -/
theorem prefix_headFrom {w : Window} {low high : Priority} {l : List α}
    (hl : ∀ a ∈ l, within low high a = true) (count bytes : Nat) (p : List α) :
    p <+: w.headFrom low high count bytes l ↔
      p <+: l ∧ (p = [] ∨ (∀ n, w.entries = some n → count + p.length ≤ n) ∧
        ∀ b, w.bytes = some b → count + p.length ≤ 1 ∨ bytes + (p.map chargeOf).sum < b) := by
  -- What the window holds grows as the list is walked, so the prefix is what comes on top of it.
  induction l generalizing count bytes p with
  | nil =>
    rw [headFrom, List.prefix_nil]
    exact ⟨fun hp => ⟨hp, .inl hp⟩, And.left⟩
  | cons a l ih =>
    cases p with
    | nil => simp
    | cons b p =>
      rw [cons_prefix_headFrom (hl a List.mem_cons_self), isFull_eq_false_iff,
        bars_eq_false_iff, ih (fun c hc => hl c (List.mem_cons_of_mem _ hc)),
        List.cons_prefix_cons, and_assoc]
      refine and_congr_right fun hb => ?_
      subst hb
      simp only [reduceCtorEq, false_or, List.length_cons, List.map_cons, List.sum_cons]
      constructor
      · rintro ⟨hn, hs, hp, hrest⟩
        refine ⟨hp, fun n he => ?_, fun n he => ?_⟩
        · have hone := hn n he
          rcases hrest with rfl | ⟨hall, -⟩
          · exact hone
          · have := hall n he
            omega
        · have hone := hs n he
          rcases hrest with rfl | ⟨-, hall⟩
          · simpa using hone
          · have := hall n he
            omega
      · rintro ⟨hp, hn, hs⟩
        refine ⟨fun n he => ?_, fun n he => ?_, hp, ?_⟩
        · have := hn n he
          omega
        · have := hs n he
          omega
        · refine .inr ⟨fun n he => ?_, fun n he => ?_⟩
          · have := hn n he
            omega
          · have := hs n he
            omega

/-- A head window on what is within its priorities is known by its prefixes. -/
theorem isHead_headFrom (w : Window) (low high : Priority) {l : List α} (h : Ascending l) :
    w.IsHead (l.filter (within low high)) (w.headFrom low high 0 0 l) := by
  intro p
  rw [← headFrom_filter w low high 0 0 h,
    prefix_headFrom (fun a ha => (List.mem_filter.1 ha).2) 0 0 p]
  simp only [Nat.zero_add]
  refine and_congr_right fun _ => ⟨?_, .inr⟩
  rintro (rfl | hp)
  · exact ⟨fun n _ => Nat.zero_le n, fun b _ => .inl (Nat.zero_le 1)⟩
  · exact hp

/-! ## Tail windows -/

theorem isOpen_iff {w : Window} {p : List α} :
    w.isOpen p.length (p.map chargeOf).sum = true ↔ w.GoesOn p := by
  unfold isOpen GoesOn
  cases hn : w.entries <;> cases hb : w.bytes <;> simp

/-- A window that is open with more is open with less. -/
theorem isOpen_of_le {w : Window} {count bytes count' bytes' : Nat} (hc : count ≤ count')
    (hb : bytes ≤ bytes') (h : w.isOpen count' bytes' = true) : w.isOpen count bytes = true := by
  revert h
  unfold isOpen
  cases w.entries with
  | none =>
    cases w.bytes with
    | none => simp
    | some b =>
      simp only [decide_eq_true_eq]
      omega
  | some n =>
    cases w.bytes with
    | none =>
      simp only [decide_eq_true_eq]
      omega
    | some b =>
      simp only [Bool.or_eq_true, decide_eq_true_eq]
      omega

/-- A tail window covers an entry if the window is open. -/
theorem cons_prefix_tailFrom {w : Window} {limit : Option Key} {a b : α} {l p : List α}
    {count bytes : Nat} (ha : beyond limit a = true) :
    b :: p <+: w.tailFrom limit count bytes (a :: l) ↔
      b = a ∧ w.isOpen count bytes = true ∧
        p <+: w.tailFrom limit (count + 1) (bytes + chargeOf a) l := by
  rw [tailFrom_cons ha]
  cases w.isOpen count bytes with
  | true => simp [List.cons_prefix_cons]
  | false => simp

/-- The prefixes of the rest of a tail window. -/
theorem prefix_tailFrom {w : Window} {limit : Option Key} {l : List α}
    (hl : ∀ a ∈ l, beyond limit a = true) (count bytes : Nat) (p : List α) :
    p <+: w.tailFrom limit count bytes l ↔
      p <+: l ∧ (p = [] ∨
        w.isOpen (count + p.dropLast.length) (bytes + (p.dropLast.map chargeOf).sum) = true) := by
  induction l generalizing count bytes p with
  | nil =>
    rw [tailFrom, List.prefix_nil]
    exact ⟨fun hp => ⟨hp, .inl hp⟩, And.left⟩
  | cons a l ih =>
    cases p with
    | nil => simp
    | cons b p =>
      rw [cons_prefix_tailFrom (hl a List.mem_cons_self),
        ih (fun c hc => hl c (List.mem_cons_of_mem _ hc)), List.cons_prefix_cons, and_assoc]
      refine and_congr_right fun hb => ?_
      subst hb
      cases p with
      | nil => simp
      | cons c p =>
        have hcount : count + 1 + (c :: p).dropLast.length =
            count + (b :: c :: p).dropLast.length := by
          simp only [List.length_dropLast, List.length_cons]
          omega
        have hbytes : bytes + chargeOf b + ((c :: p).dropLast.map chargeOf).sum =
            bytes + ((b :: c :: p).dropLast.map chargeOf).sum := by
          rw [List.dropLast_cons_cons, List.map_cons, List.sum_cons, Nat.add_assoc]
        rw [hcount, hbytes]
        simp only [reduceCtorEq, false_or]
        -- That the window is open before the last entry is all: it was open before each of the
        -- others.
        refine ⟨And.right, fun h => ⟨?_, h⟩⟩
        exact isOpen_of_le (Nat.le_add_right _ _) (Nat.le_add_right _ _) h.2

/-- A tail window on what lies beyond its limit is known by its prefixes. -/
theorem isTail_tailFrom (w : Window) (limit : Option Key) {l : List α}
    (h : l.Pairwise fun a b => keyOf b < keyOf a) :
    w.IsTail (l.filter (beyond limit)) (w.tailFrom limit 0 0 l) := by
  intro p
  rw [← tailFrom_filter w limit 0 0 h,
    prefix_tailFrom (fun a ha => (List.mem_filter.1 ha).2) 0 0 p]
  simp only [Nat.zero_add, isOpen_iff]

end Window

end Spillway
