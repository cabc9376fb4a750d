import Spillway.Proofs.Reach

/-!
# Head windows in words

A head window is asked for with two signed words, and the walk that cuts it keeps the bytes it has
covered in a word that stays at the largest one. Neither is seen: the window is the longest prefix
of what is within its band that respects the two bounds, its bytes counted exactly. So a wider bound
only extends a window, and no entry is so large that a window stays empty before it.
-/

namespace Spillway

/-- A band once something of a priority has been met. -/
def Band.narrowed (band : Band) (met : Priority) : Band :=
  match band with
  | .ofFirst => .between met met
  | band => band

/-- The sum of two words, or the largest word if there is none. -/
def addWords (x y : UInt64) : UInt64 :=
  if x.toNat + y.toNat < 2 ^ 64 then x + y else UInt64.ofNat (2 ^ 64 - 1)

theorem toNat_addWords (x y : UInt64) :
    (addWords x y).toNat = min (x.toNat + y.toNat) (2 ^ 64 - 1) := by
  unfold addWords
  split
  · rw [UInt64.toNat_add]
    omega
  · rw [UInt64.toNat_ofNat_of_lt' (by decide)]
    omega

namespace Window

variable {α : Type} [Slotted α]

/-! ## The walk -/

/-- The walk of a head window that holds `count` entries, with their bytes in a word. The band
narrows to the first priority that is met if it is about no other. -/
def walk (w : Window) (band : Band) (count : Nat) (bytes : UInt64) : List α → List α
  | [] => []
  | a :: l =>
    if w.isFull count then []
    else if (keyOf a).priority < (limitsOf band (a :: l)).1 then []
    else if (limitsOf band (a :: l)).2 < (keyOf a).priority then
      walk w (band.narrowed (keyOf a).priority) count bytes l
    else
      let size := (Slotted.slot a).size
      if decide (0 < count) && w.bytes.any (· ≤ (addWords bytes size).toNat) then []
      else a :: walk w (band.narrowed (keyOf a).priority) (count + 1) (addWords bytes size) l

/-- A sum that has reached the largest word has reached every bound that is a word. -/
theorem bars_capped {w : Window} (hb : ∀ b, w.bytes = some b → b < 2 ^ 64) (count : Nat)
    {bytes : UInt64} {exact : Nat} (he : bytes.toNat = min exact (2 ^ 64 - 1)) (size : UInt64) :
    (decide (0 < count) && w.bytes.any (· ≤ (addWords bytes size).toNat)) =
      w.bars count exact size.toNat := by
  unfold bars
  congr 1
  cases hw : w.bytes with
  | none => rfl
  | some b =>
    have hword := hb b hw
    simp only [Option.any_some, toNat_addWords, decide_eq_decide]
    omega

/-- The walk within fixed limits. -/
theorem walk_eq_headFrom {w : Window} (hb : ∀ b, w.bytes = some b → b < 2 ^ 64) {band : Band}
    {low high : Priority} (hlimits : ∀ l : List α, limitsOf band l = (low, high))
    (hband : ∀ p, band.narrowed p = band) (count : Nat) {bytes : UInt64} {exact : Nat}
    (he : bytes.toNat = min exact (2 ^ 64 - 1)) (l : List α) :
    w.walk band count bytes l = w.headFrom low high count exact l := by
  -- The word holds the exact sum for as long as that is a word, so both walks end at one place.
  induction l generalizing count bytes exact with
  | nil => rfl
  | cons a l ih =>
    have hnext : (addWords bytes (Slotted.slot a).size).toNat =
        min (exact + chargeOf a) (2 ^ 64 - 1) := by
      rw [toNat_addWords, he, chargeOf]
      omega
    have hstop := bars_capped hb count he (Slotted.slot a).size
    simp only [walk, headFrom, hlimits, hband, hstop, ih count he, ih (count + 1) hnext]
    rfl

/-- The walk cuts the head window of exact sums. -/
theorem walk_eq_head {w : Window} (hb : ∀ b, w.bytes = some b → b < 2 ^ 64) (band : Band)
    (l : List α) : w.walk band 0 0 l = w.head band l := by
  cases band with
  | all => exact walk_eq_headFrom hb (fun _ => rfl) (fun _ => rfl) 0 rfl l
  | between low high => exact walk_eq_headFrom hb (fun _ => rfl) (fun _ => rfl) 0 rfl l
  | ofFirst =>
    cases l with
    | nil => rfl
    | cons a l =>
      -- The first entry met fixes the limits.
      let p := (keyOf a).priority
      have hfirst : w.walk .ofFirst 0 0 (a :: l) = w.walk (.between p p) 0 0 (a :: l) := rfl
      rw [hfirst]
      exact walk_eq_headFrom hb (fun _ => rfl) (fun _ => rfl) 0 rfl (a :: l)

/-! ## What a window is -/

/-- What two signed words ask of the entries that a window covers: no more than the first, and fewer
bytes than the second unless it is a single entry. A negative word asks nothing. -/
def Within (n b : Int64) (p : List α) : Prop :=
  (0 ≤ n.toInt → (p.length : Int) ≤ n.toInt) ∧
    (0 ≤ b.toInt → p.length ≤ 1 ∨ ((p.map chargeOf).sum : Int) < b.toInt)

/-- The second word asks no more than the first. -/
def Wider (n n' : Int64) : Prop := n'.toInt < 0 ∨ 0 ≤ n.toInt ∧ n.toInt ≤ n'.toInt

theorem bound_eq_some_iff {n : Int} {k : Nat} : bound n = some k ↔ n = k := by
  unfold bound
  split
  · simp only [reduceCtorEq, false_iff]
    omega
  · simp only [Option.some.injEq]
    omega

/-- What fits a window is what respects its words. -/
theorem fits_ofInts {n b : Int64} {p : List α} :
    (ofInts n.toInt b.toInt).Fits p ↔ Within n b p := by
  simp only [Fits, Within, ofInts, bound_eq_some_iff]
  constructor
  · rintro ⟨hn, hb⟩
    refine ⟨fun h => ?_, fun h => ?_⟩
    · have := hn n.toInt.toNat (by omega)
      omega
    · have := hb b.toInt.toNat (by omega)
      omega
  · rintro ⟨hn, hb⟩
    refine ⟨fun k hk => ?_, fun k hk => ?_⟩
    · have := hn (by omega)
      omega
    · have := hb (by omega)
      omega

/-- What respects words respects wider ones. -/
theorem Within.wider {n b n' b' : Int64} {p : List α} (h : Within n b p) (hn : Wider n n')
    (hb : Wider b b') : Within n' b' p := by
  obtain ⟨hcount, hbytes⟩ := h
  unfold Wider at hn hb
  refine ⟨fun h => ?_, fun h => ?_⟩
  · have := hcount (by omega)
    omega
  · have := hbytes (by omega)
    omega

/-- A single entry respects all words but a first one of zero. -/
theorem Within.single {n : Int64} (hn : n ≠ 0) (b : Int64) (a : α) : Within n b [a] := by
  have hne : n.toInt ≠ 0 := fun h => hn (Int64.toInt_inj.1 h)
  refine ⟨fun h => ?_, fun _ => .inl (Nat.le_refl 1)⟩
  simp only [List.length_cons, List.length_nil]
  omega

/-- The bound on bytes is a word. -/
theorem bytes_ofInts_lt {n b : Int64} {k : Nat} (h : (ofInts n.toInt b.toInt).bytes = some k) :
    k < 2 ^ 64 := by
  have hk := bound_eq_some_iff.1 h
  have := b.toInt_lt
  omega

/-- The longest prefix of a list that respects two words. -/
structure Longest (n b : Int64) (l p : List α) : Prop where
  /-- It is a prefix of the list. -/
  part : p <+: l
  /-- It respects the words. -/
  respects : Within n b p
  /-- It goes as far as any other. -/
  farthest : ∀ q, q <+: l → Within n b q → q <+: p

/-- The head window that two words ask for, as it is walked. -/
def headOf (n b : Int64) (band : Band) (l : List α) : List α :=
  (ofInts n.toInt b.toInt).walk band 0 0 l

theorem headOf_eq_head (n b : Int64) (band : Band) (l : List α) :
    headOf n b band l = (ofInts n.toInt b.toInt).head band l :=
  walk_eq_head (fun _ hk => bytes_ofInts_lt hk) band l

theorem longest_headOf {l : List α} (h : Ascending l) (n b : Int64) (band : Band) :
    Longest n b (band.among l) (headOf n b band l) := by
  have hhead := (ofInts n.toInt b.toInt).isHead_headFrom (limitsOf band l).1 (limitsOf band l).2 h
  rw [filter_within_eq] at hhead
  rw [headOf_eq_head]
  obtain ⟨hpart, hfits⟩ := (hhead _).1 List.prefix_rfl
  refine ⟨hpart, fits_ofInts.1 hfits, fun q hq hw => ?_⟩
  exact (hhead q).2 ⟨hq, fits_ofInts.2 hw⟩

/-- A head window is the longest prefix of what is within its band that respects its two words, the
bytes counted exactly although the walk keeps them in a word. Wider words extend it, and it is not
empty as long as it may have an entry and there is one. -/
theorem head_window_longest {l : List α} (h : Ascending l) (n b : Int64) (band : Band) :
    (ofInts n.toInt b.toInt).head band l = headOf n b band l ∧
      Longest n b (band.among l) (headOf n b band l) ∧
      (∀ n' b', Wider n n' → Wider b b' → headOf n b band l <+: headOf n' b' band l) ∧
      (n ≠ 0 → band.among l ≠ [] → headOf n b band l ≠ []) := by
  have hlongest := longest_headOf h n b band
  refine ⟨(headOf_eq_head n b band l).symm, hlongest, fun n' b' hn hb => ?_, fun hn hsome => ?_⟩
  · have hwide := longest_headOf h n' b' band
    exact hwide.farthest _ hlongest.part (hlongest.respects.wider hn hb)
  · intro hnone
    obtain ⟨a, rest, ha⟩ := List.exists_cons_of_ne_nil hsome
    have hone : [a] <+: band.among l := by simp [ha]
    have hcovered := hlongest.farthest [a] hone (.single hn b a)
    simp [hnone] at hcovered

/-- Three entries of the highest level, two of them as large as can be, and one of the lowest. -/
def heavySlots : List Slot :=
  [⟨⟨.highest, 1⟩, UInt64.ofNat (2 ^ 64 - 1), true⟩, ⟨⟨.highest, 2⟩, 7, false⟩,
    ⟨⟨.highest, 3⟩, UInt64.ofNat (2 ^ 64 - 1), false⟩, ⟨⟨.lowest, 1⟩, 0, true⟩]

/-- The first entry is covered although it is beyond the bound on bytes, and ends the window;
without that bound the window ends with the level of the first entry. -/
theorem head_window_of_heavySlots :
    Ascending heavySlots ∧ headOf (-1) 10 .ofFirst heavySlots = heavySlots.take 1 ∧
      headOf (-1) (-1) .ofFirst heavySlots = heavySlots.take 3 ∧
      Longest (-1) 10 (Band.ofFirst.among heavySlots) (heavySlots.take 1) ∧
      heavySlots.take 1 <+: heavySlots.take 3 ∧ heavySlots.take 1 ≠ [] := by
  have h : Ascending heavySlots := by unfold Ascending; decide +kernel
  have hbounded : headOf (-1) 10 .ofFirst heavySlots = heavySlots.take 1 := by decide +kernel
  have hunbounded : headOf (-1) (-1) .ofFirst heavySlots = heavySlots.take 3 := by decide +kernel
  obtain ⟨-, hlongest, hwider, hsome⟩ := head_window_longest h (-1) 10 .ofFirst
  have hpart := hwider (-1) (-1) (.inl (by decide)) (.inl (by decide))
  have hone := hsome (by decide) (by decide +kernel)
  rw [hbounded] at hlongest hpart hone
  rw [hunbounded] at hpart
  exact ⟨h, hbounded, hunbounded, hlongest, hpart, hone⟩

end Window

end Spillway
