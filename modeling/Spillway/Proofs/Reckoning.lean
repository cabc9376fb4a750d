import Mathlib.Algebra.Order.BigOperators.Group.List
import Mathlib.Algebra.Order.Group.Nat
import Mathlib.Algebra.Ring.Int.Defs
import Spillway.Proofs.Totals
import Spillway.Table.Statement

/-!
# Counting in signed words

The table sums sizes in signed words and refuses a sum as soon as it leaves their range; the queues
count in unsigned ones. Sizes keep their bits in their cells, so that one of the upper half counts
as a negative number. If the sum of all is a word at all, there is at most one of these, and with it
no sum on the way is too large; without it the sum must stay in the lower half. Whenever the table
does not refuse, its totals are those that the queues have.
-/

namespace Spillway

/-- Sizes that add up in signed words: their sum stays in the lower half, or it is a word and one of
them lies in the upper half. -/
def AddUp (sizes : List UInt64) : Prop :=
  (sizes.map UInt64.toNat).sum < 2 ^ 63 ∨
    (sizes.map UInt64.toNat).sum < 2 ^ 64 ∧ ∃ size ∈ sizes, 2 ^ 63 ≤ size.toNat

instance (sizes : List UInt64) : Decidable (AddUp sizes) :=
  inferInstanceAs (Decidable (_ ∨ _ ∧ _))

/-- Entries whose sizes add up in signed words. -/
def Reckonable (l : List Entry) : Prop := AddUp (l.map Entry.size)

instance (l : List Entry) : Decidable (Reckonable l) := inferInstanceAs (Decidable (AddUp _))

theorem sum_sizes (l : List Entry) :
    ((l.map Entry.size).map UInt64.toNat).sum = (Tally.total l).bytes := by
  rw [Tally.total_bytes, List.map_map]
  rfl

/-- Entries whose bytes stay in the lower half can be counted. -/
theorem Reckonable.of_lt {l : List Entry} (h : (Tally.total l).bytes < 2 ^ 63) : Reckonable l :=
  .inl ((sum_sizes l).symm ▸ h)

theorem Reckonable.lt {l : List Entry} (h : Reckonable l) : (Tally.total l).bytes < 2 ^ 64 := by
  rw [Reckonable, AddUp, sum_sizes] at h
  rcases h with h | ⟨h, -⟩ <;> omega

/-- What can be counted can be counted in part: of two parts only one has the size of the upper
half, and what is left for the other is in the lower one. -/
theorem Reckonable.filter {l : List Entry} (h : Reckonable l) (p : Entry → Bool) :
    Reckonable (l.filter p) := by
  have hsplit : (Tally.total (l.filter p)).bytes + (Tally.total (l.filter (!p ·))).bytes =
      (Tally.total l).bytes := by
    rw [← Tally.total_perm (List.filter_append_perm p l)]
    simp only [Tally.total_bytes, List.map_append, List.sum_append]
  have hlt := h.lt
  rcases h with h | ⟨-, size, hsize, hbig⟩
  · rw [sum_sizes] at h
    exact .of_lt (by omega)
  obtain ⟨e, he, rfl⟩ := List.mem_map.1 hsize
  cases hp : p e with
  | true =>
    refine .inr ⟨?_, e.size, List.mem_map_of_mem (List.mem_filter.2 ⟨he, hp⟩), hbig⟩
    rw [sum_sizes]
    omega
  | false =>
    have hrest : e.size.toNat ≤ (Tally.total (l.filter (!p ·))).bytes := by
      rw [Tally.total_bytes]
      refine List.single_le_sum (fun _ _ => Nat.zero_le _) _ (List.mem_map.2 ⟨e, ?_, rfl⟩)
      exact List.mem_filter.2 ⟨he, by rw [hp]; rfl⟩
    exact .of_lt (by omega)

/-! ## Cells -/

/-- A size in its cell, as a number. -/
theorem toInt_sizeToCell (size : UInt64) : (sizeToCell size).toInt =
    if size.toNat < 2 ^ 63 then (size.toNat : Int) else size.toNat - 2 ^ 64 := by
  have hsize := size.toNat_lt
  change size.toBitVec.toInt = _
  rw [BitVec.toInt_eq_toNat_cond, show size.toBitVec.toNat = size.toNat from rfl]
  split <;> split <;> omega

/-- Two sizes whose sum is a word add up in signed words unless both lie in the lower half and their
sum does not. -/
theorem toSignedWord_add {x y : UInt64} (h : x.toNat + y.toNat < 2 ^ 64) :
    Text.toSignedWord? ((sizeToCell x).toInt + (sizeToCell y).toInt) =
      if x.toNat + y.toNat < 2 ^ 63 ∨ 2 ^ 63 ≤ x.toNat ∨ 2 ^ 63 ≤ y.toNat then
        some (sizeToCell (x + y))
      else none := by
  have hsum : (x + y).toNat = x.toNat + y.toNat := by
    rw [UInt64.toNat_add, Nat.mod_eq_of_lt h]
  have hx := toInt_sizeToCell x
  have hy := toInt_sizeToCell y
  have hxy := toInt_sizeToCell (x + y)
  rw [hsum] at hxy
  split
  · next hfits =>
    have hcell : (sizeToCell x).toInt + (sizeToCell y).toInt = (sizeToCell (x + y)).toInt := by
      split at hx <;> split at hy <;> split at hxy <;> omega
    rw [hcell, Text.toSignedWord?, if_pos, Int64.ofInt_toInt]
    simp only [Text.halfWords]
    split at hxy <;> omega
  · next hlarge =>
    rw [Text.toSignedWord?, if_neg]
    simp only [Text.halfWords]
    split at hx <;> split at hy <;> omega

/-- The unsigned sum of sizes. -/
def sumWords (sizes : List UInt64) : UInt64 := sizes.foldr (· + ·) 0

theorem sumWords_cons (size : UInt64) (sizes : List UInt64) :
    sumWords (size :: sizes) = size + sumWords sizes := rfl

/-- Adding sizes one after the other to a sum of others gives their sum if all of them add up in
signed words, and is refused on the way if they do not. -/
theorem foldlM_cells (sizes : List UInt64) : ∀ sum : UInt64,
    sum.toNat + (sizes.map UInt64.toNat).sum < 2 ^ 64 →
    (sizes.map sizeToCell).foldlM (fun (sum : Int64) cell =>
      match Text.toSignedWord? (sum.toInt + cell.toInt) with
      | some next => Except.ok next
      | none => .error Refusal.totalOverflow) (sizeToCell sum) =
      if AddUp (sum :: sizes) then .ok (sizeToCell (sum + sumWords sizes))
      else .error .totalOverflow := by
  induction sizes with
  | nil =>
    intro sum h
    have hone : AddUp [sum] := by
      simp only [AddUp, List.map_cons, List.map_nil, List.sum_cons, List.sum_nil,
        List.mem_singleton, exists_eq_left]
      omega
    rw [if_pos hone, show sumWords [] = 0 from rfl, UInt64.add_zero]
    rfl
  | cons size sizes ih =>
    intro sum h
    rw [List.map_cons, List.sum_cons] at h
    have hword := toSignedWord_add (x := sum) (y := size) (by omega)
    rw [List.map_cons, List.foldlM_cons, hword]
    by_cases hfits : sum.toNat + size.toNat < 2 ^ 63 ∨ 2 ^ 63 ≤ sum.toNat ∨ 2 ^ 63 ≤ size.toNat
    · have hnext : (sum + size).toNat = sum.toNat + size.toNat := by
        rw [UInt64.toNat_add, Nat.mod_eq_of_lt (by omega)]
      -- The sum so far is large exactly if one of its parts is.
      have hbig : 2 ^ 63 ≤ sum.toNat + size.toNat ↔ 2 ^ 63 ≤ sum.toNat ∨ 2 ^ 63 ≤ size.toNat := by
        omega
      have hsame : AddUp ((sum + size) :: sizes) ↔ AddUp (sum :: size :: sizes) := by
        simp only [AddUp, List.map_cons, List.sum_cons, List.mem_cons, exists_eq_or_imp, hnext,
          Nat.add_assoc, hbig, or_assoc]
      have hrest := ih (sum + size) (by omega)
      simp only [hsame] at hrest
      rw [if_pos hfits, sumWords_cons, ← UInt64.add_assoc]
      exact hrest
    · have hlarge : ¬ AddUp (sum :: size :: sizes) := by
        simp only [AddUp, List.map_cons, List.sum_cons, List.mem_cons, exists_eq_or_imp]
        rintro (hlow | ⟨-, hbig | hbig | ⟨other, hother, hbig⟩⟩)
        · omega
        · omega
        · omega
        · have := List.single_le_sum (fun _ _ => Nat.zero_le _) _
            (List.mem_map_of_mem (f := UInt64.toNat) hother)
          omega
      rw [if_neg hfits, if_neg hlarge]
      rfl

/-- Sizes whose sum is a word are summed exactly, or refused. -/
theorem sumCells_eq {sizes : List UInt64} (h : (sizes.map UInt64.toNat).sum < 2 ^ 64) :
    Statement.sumCells (sizes.map sizeToCell) =
      if AddUp sizes then .ok (sizeToCell (sumWords sizes)) else .error .totalOverflow := by
  have hzero : AddUp (0 :: sizes) ↔ AddUp sizes := by
    simp [AddUp]
  have hsum := foldlM_cells sizes 0 (by simpa using h)
  simp only [hzero, UInt64.zero_add] at hsum
  exact hsum

/-- The unsigned sum of sizes is their sum, if that is a word. -/
theorem toNat_sumWords {sizes : List UInt64} (h : (sizes.map UInt64.toNat).sum < 2 ^ 64) :
    (sumWords sizes).toNat = (sizes.map UInt64.toNat).sum := by
  induction sizes with
  | nil => rfl
  | cons size sizes ih =>
    rw [List.map_cons, List.sum_cons] at h ⊢
    have hrest := ih (by omega)
    rw [sumWords_cons, UInt64.toNat_add, hrest, Nat.mod_eq_of_lt h]

/-! ## Totals of rows -/

/-- What the bytes of the entries that must survive are summed from: the others count as nothing. -/
def lastingSizes (l : List Entry) : List UInt64 := l.map fun e => if e.persistent then e.size else 0

theorem sum_lastingSizes (l : List Entry) :
    ((lastingSizes l).map UInt64.toNat).sum = (Tally.total l).persistentBytes := by
  rw [Tally.total_eq]
  induction l with
  | nil => rfl
  | cons e l ih =>
    change UInt64.toNat (if lasting e then e.size else 0) +
      ((lastingSizes l).map UInt64.toNat).sum = _
    rw [ih]
    cases hp : lasting e with
    | true =>
      rw [List.filter_cons_of_pos hp]
      rfl
    | false =>
      rw [List.filter_cons_of_neg (by simp [hp])]
      exact Nat.zero_add _

theorem filter_persistent_filter (l : List Entry) :
    (l.filter (·.persistent)).filter (·.persistent) = l.filter (·.persistent) := by
  rw [List.filter_filter]
  exact List.filter_congr fun e _ => Bool.and_self _

/-- The totals of what must survive. -/
def Tally.surviving (t : Tally) : Tally :=
  ⟨t.persistentEntries, t.persistentBytes, t.persistentEntries, t.persistentBytes⟩

theorem Tally.total_surviving (l : List Entry) :
    total (l.filter (·.persistent)) = (total l).surviving := by
  have htwice : (l.filter (·.persistent)).filter Spillway.lasting = l.filter Spillway.lasting :=
    filter_persistent_filter l
  rw [total_eq, total_eq, htwice]
  rfl

/-- Where all sizes add up in signed words, those of the entries that must survive do. -/
theorem addUp_lastingSizes {l : List Entry} (h : Reckonable l) : AddUp (lastingSizes l) := by
  have hpart : Reckonable (l.filter (·.persistent)) := h.filter _
  have hsum : ((lastingSizes l).map UInt64.toNat).sum =
      (((l.filter (·.persistent)).map Entry.size).map UInt64.toNat).sum := by
    rw [sum_lastingSizes, sum_sizes, Tally.total_eq, Tally.total_bytes]
    rfl
  rw [AddUp, hsum]
  refine hpart.imp_right fun ⟨hlt, size, hsize, hbig⟩ => ⟨hlt, size, ?_, hbig⟩
  obtain ⟨e, he, rfl⟩ := List.mem_map.1 hsize
  obtain ⟨he, hp⟩ := List.mem_filter.1 he
  exact List.mem_map.2 ⟨e, he, if_pos hp⟩

/-- The totals of the rows of entries whose bytes are a word: exact, or refused. -/
theorem tallyOf_ofEntry (queue : String) {l : List Entry} (h : (Tally.total l).bytes < 2 ^ 64) :
    Statement.tallyOf (l.map (Row.ofEntry queue)) =
      if Reckonable l then .ok (Tally.total l) else .error .totalOverflow := by
  have hsizes : (l.map (Row.ofEntry queue)).map (·.size) = (l.map Entry.size).map sizeToCell := by
    rw [List.map_map, List.map_map]
    rfl
  have hlasting : (l.map (Row.ofEntry queue)).map (fun r => if r.persistent then r.size else 0) =
      (lastingSizes l).map sizeToCell := by
    rw [lastingSizes, List.map_map, List.map_map]
    refine List.map_congr_left fun e _ => ?_
    change (if e.persistent then sizeToCell e.size else 0) =
      sizeToCell (if e.persistent then e.size else 0)
    cases e.persistent <;> rfl
  have hcount : ((l.map (Row.ofEntry queue)).filter (·.persistent)).length =
      (l.filter lasting).length := by
    rw [List.filter_map, List.length_map]
    rfl
  have hbytes := sumCells_eq ((sum_sizes l).symm ▸ h)
  rw [Statement.tallyOf, hsizes, hlasting]
  by_cases hr : Reckonable l
  · have hpart := addUp_lastingSizes hr
    have hle : ((lastingSizes l).map UInt64.toNat).sum < 2 ^ 64 := by
      rw [sum_lastingSizes]
      have hlt := (hr.filter lasting).lt
      rw [Tally.total_bytes] at hlt
      rwa [Tally.total_eq]
    have hwhole := toNat_sumWords ((sum_sizes l).symm ▸ h)
    have hrest := toNat_sumWords hle
    rw [sum_sizes] at hwhole
    rw [sum_lastingSizes] at hrest
    rw [hbytes, sumCells_eq hle, if_pos hr, if_pos (show AddUp _ from hr), if_pos hpart]
    have hread : ∀ size : UInt64, (sizeToCell size).toUInt64 = size := sizeOfCell_sizeToCell
    simp only [bind, Except.bind, pure, Except.pure, hcount, hread, hwhole, hrest, List.length_map]
    rw [Tally.total_eq]
  · rw [hbytes, if_neg (show ¬ AddUp _ from hr), if_neg hr]
    rfl

end Spillway
