import Spillway.Proofs.Layout

/-!
# How full memory is

Memory is full where it has no room for the first cold entry. Then it has the longest prefix of the
whole queue that the cache bounds allow, so what is in memory depends on the contents and the bounds
alone. Copying in what fits fills memory, and a put over full memory leaves it full.
-/

namespace Spillway

open Held

namespace Bounds

variable {α : Type} [Slotted α]

/-- Whether a list keeps within the cache bounds. -/
def Fits (b : Bounds) (l : List α) : Prop :=
  l.length ≤ b.cacheEntries ∧ (l.map chargeOf).sum ≤ b.cacheBytes

/-- The longest prefix of a list that keeps within the cache bounds. -/
structure Longest (b : Bounds) (l p : List α) : Prop where
  /-- It is a prefix. -/
  front : p <+: l
  /-- It keeps within the bounds. -/
  fits : b.Fits p
  /-- No other is longer. -/
  longest : ∀ q, q <+: l → b.Fits q → q.length ≤ p.length

/-- There is only one. -/
theorem Longest.unique {b b' : Bounds} {l p q : List α} (hp : b.Longest l p)
    (hq : b'.Longest l q) (he : b'.cacheEntries = b.cacheEntries)
    (hb : b'.cacheBytes = b.cacheBytes) : p = q := by
  have hle : p.length ≤ q.length := hq.longest p hp.front (by
    rw [Fits, he, hb]
    exact hp.fits)
  have hge : q.length ≤ p.length := hp.longest q hq.front (by
    rw [Fits, ← he, ← hb]
    exact hq.fits)
  exact (List.prefix_of_prefix_length_le hp.front hq.front hle).eq_of_length
    (Nat.le_antisymm hle hge)

/-- Nothing of a list fits exactly if its first member does not. -/
theorem fill_eq_nil_iff {b : Bounds} {entries bytes : Nat} {l : List α} :
    (b.fill entries bytes l).1 = [] ↔
      ∀ a, l.head? = some a → b.hasRoom entries bytes (chargeOf a) = false := by
  cases l with
  | nil => simp [fill]
  | cons a l => cases hr : b.hasRoom entries bytes (chargeOf a) <;> simp [fill, hr]

/-- Once what fits of a list was added, nothing more of it fits. -/
theorem fill_rest (b : Bounds) (entries bytes : Nat) (l : List α) :
    (b.fill (entries + (b.fill entries bytes l).1.length)
      (bytes + ((b.fill entries bytes l).1.map chargeOf).sum) (b.fill entries bytes l).2).1 =
        [] := by
  induction l generalizing entries bytes with
  | nil => rfl
  | cons a l ih =>
    cases hr : b.hasRoom entries bytes (chargeOf a) with
    | false => simp [fill, hr]
    | true =>
      have hrest := ih (entries + 1) (bytes + chargeOf a)
      simp only [fill, hr, if_true, List.length_cons, List.map_cons, List.sum_cons]
      rwa [Nat.add_assoc, Nat.add_comm 1, Nat.add_assoc] at hrest

/-- More in memory leaves less room. -/
theorem hasRoom_of_le {b : Bounds} {entries entries' bytes bytes' size : Nat}
    (he : entries ≤ entries') (hb : bytes ≤ bytes')
    (h : b.hasRoom entries bytes size = false) : b.hasRoom entries' bytes' size = false := by
  simp only [hasRoom, Bool.and_eq_false_iff, decide_eq_false_iff_not] at *
  omega

/-- A list that keeps within the bounds, followed by what has no room behind it, is the longest
prefix of both. -/
theorem longest_append {b : Bounds} {l rest : List α} (hf : b.Fits l)
    (hr : (b.fill l.length (l.map chargeOf).sum rest).1 = []) : b.Longest (l ++ rest) l := by
  refine ⟨List.prefix_append l rest, hf, fun q hq hfits => ?_⟩
  by_contra hlong
  cases rest with
  | nil => exact hlong (by simpa using hq.length_le)
  | cons a rest =>
    have hnone := fill_eq_nil_iff.1 hr a rfl
    have hmore : (l ++ [a]) <+: q := by
      refine List.prefix_of_prefix_length_le ?_ hq (by simp; omega)
      exact ⟨rest, by simp⟩
    have hle := hmore.length_le
    have hsum := sum_charge_le hmore.sublist
    simp only [List.map_append, List.sum_append, List.length_append, List.map_cons, List.map_nil,
      List.sum_cons, List.sum_nil, List.length_cons, List.length_nil] at hle hsum
    simp only [hasRoom, Bool.and_eq_false_iff, decide_eq_false_iff_not] at hnone
    obtain ⟨hq₁, hq₂⟩ := hfits
    omega

/-- What fits of a list is the longest prefix of it that keeps within the bounds. -/
theorem longest_fill (b : Bounds) (l : List α) : b.Longest l (b.fill 0 0 l).1 := by
  have hroom := b.fill_room (Nat.zero_le _) (Nat.zero_le _) l
  have hrest := b.fill_rest 0 0 l
  rw [Nat.zero_add, Nat.zero_add] at hroom hrest
  have hlong := longest_append hroom hrest
  rwa [b.fill_append] at hlong

end Bounds

/-- No cold entry fits into memory any more. -/
def Brimful (b : Bounds) (l : List Held) : Prop := (fitting b l).1 = []

section

variable {b : Bounds} {l : List Held}

theorem brimful_iff : Brimful b l ↔ promotable b l = [] := List.map_eq_nil_iff.symm

/-- Memory keeps within the cache bounds. -/
theorem Layout.fits (h : Layout b l) : b.Fits (inMemory l) := by
  constructor
  · rw [inMemory, List.length_map]
    exact h.entries
  · rw [inMemory, List.map_map]
    exact h.bytes

/-- Full memory has the longest prefix of the whole that it may have. -/
theorem Layout.longest (h : Layout b l) (hb : Brimful b l) :
    b.Longest (l.map Held.entry) (inMemory l) := by
  have hlong : b.Longest (l.filter isHot ++ l.filter isCold) (l.filter isHot) :=
    Bounds.longest_append ⟨h.entries, h.bytes⟩ hb
  rw [h.split] at hlong
  refine ⟨hlong.front.map _, h.fits, fun q hq hf => ?_⟩
  obtain ⟨p, hp, rfl⟩ := List.prefix_map_iff.1 hq
  rw [inMemory, List.length_map, List.length_map]
  refine hlong.longest p hp ⟨?_, ?_⟩
  · have := hf.1
    rwa [List.length_map] at this
  · have := hf.2
    rwa [List.map_map] at this

/-- Changing what does not move and stays where it is kept leaves full memory full. -/
theorem Brimful.map (h : Brimful b l) {f : Held → Held} (he : ∀ x, (f x).entry = x.entry)
    (ht : ∀ x, (f x).isHot = x.isHot) : Brimful b (l.map f) := by
  have hhot : (l.map f).filter isHot = (l.filter isHot).map f := by
    rw [List.filter_map]
    exact congrArg _ (List.filter_congr fun x _ => ht x)
  have hcold : (l.map f).filter isCold = (l.filter isCold).map f := by
    rw [List.filter_map]
    refine congrArg _ (List.filter_congr fun x _ => ?_)
    change (f x).isCold = x.isCold
    rw [isCold_eq, isCold_eq, ht]
  rw [Brimful, fitting, hhot, hcold, List.length_map, map_chargeOf he,
    b.fill_map fun x => congrArg Entry.slot (he x), List.map_eq_nil_iff]
  exact h

/-- Once the first cold entries that fit are copied into memory, it is full. -/
theorem Layout.brimful_heated (h : Layout b l) :
    Brimful b (l.map (onIds (promotable b l) heated)) := by
  let f := onIds (promotable b l) heated
  have hentry : ∀ x, (f x).entry = x.entry := entry_onIds fun _ => rfl
  have hhot : (l.map f).filter isHot = (l.filter fun x => (f x).isHot).map f := by
    rw [List.filter_map]
    rfl
  have hcold : (l.map f).filter isCold = (fitting b l).2.map f := by
    have hkeep : (l.filter isCold).filter (fun x => !decide (x.entry.id ∈ promotable b l)) =
        (fitting b l).2 := by
      have ho := h.order.filter isCold
      rw [← fitting_append b l] at ho ⊢
      exact filter_ids_rest ho
    rw [List.filter_map, ← hkeep, List.filter_filter]
    refine congrArg _ (List.filter_congr fun x _ => ?_)
    change (f x).isCold = _
    rw [isCold_eq, isCold_eq, isHot_heated, Bool.not_or, Bool.and_comm]
  have hlength : ((l.map f).filter isHot).length =
      (l.filter isHot).length + (fitting b l).1.length := by
    rw [hhot, List.length_map, (Layout.perm_heated h.order).length_eq, List.length_append]
  have hbytes : (((l.map f).filter isHot).map chargeOf).sum =
      ((l.filter isHot).map chargeOf).sum + ((fitting b l).1.map chargeOf).sum := by
    rw [hhot, map_chargeOf hentry, ((Layout.perm_heated h.order).map chargeOf).sum_nat,
      List.map_append, List.sum_append]
  have hrest := b.fill_rest (l.filter isHot).length ((l.filter isHot).map chargeOf).sum
    (l.filter isCold)
  rw [Brimful, fitting, hlength, hbytes, hcold,
    b.fill_map fun x => congrArg Entry.slot (hentry x), List.map_eq_nil_iff]
  exact hrest

/-- What lies ahead of nothing lies behind some cold entry, or is one. -/
theorem exists_of_not_liesAhead (h : Ordered l) {key : Key} (ha : liesAhead l key = false) :
    ∃ c ∈ l, c.isHot = false ∧ c.entry.key ≤ key := by
  by_contra hn
  refine Bool.eq_false_iff.1 ha ((liesAhead_iff h).2 fun c hc hcold => ?_)
  by_contra hlt
  exact hn ⟨c, hc, hcold, hlt⟩

section

variable {new : List Entry}

/-- Where all that is new lies ahead, the candidates are memory merged with it. -/
theorem candidates_eq (ha : ∀ e ∈ new, liesAhead l e.key = true) :
    candidates l new = (sortByKey (inMemory l ++ new)).map Entry.slot := by
  have hbefore : ∀ e f : Entry, servedBefore e.slot f.slot = servedBefore e f := fun _ _ => rfl
  have hsort : (sortByKey (inMemory l ++ new)).map Entry.slot =
      sortByKey ((inMemory l ++ new).map Entry.slot) := (sortOrdered_map hbefore _).symm
  rw [hsort, candidates, List.filter_eq_self.2 ha, inMemory, List.map_append, List.map_map]
  rfl

/-- Then what stays in memory is what fits of that. -/
theorem stays_iff_mem_fill (h : Layout b l) (hn : (new.map Entry.id).Nodup)
    (hd : ∀ e ∈ new, ∀ x ∈ l, x.entry.id ≠ e.id) (ha : ∀ e ∈ new, liesAhead l e.key = true)
    {e : Entry} (he : e ∈ inMemory l ++ new) :
    stays b l new e.key = true ↔ e ∈ (b.fill 0 0 (sortByKey (inMemory l ++ new))).1 := by
  let merged := sortByKey (inMemory l ++ new)
  have hslots : candidates l new = merged.map Entry.slot := candidates_eq ha
  have hahead : liesAhead l e.key = true := by
    rcases List.mem_append.1 he with he | he
    · obtain ⟨x, hx, rfl⟩ := List.mem_map.1 he
      obtain ⟨hx, hhot⟩ := List.mem_filter.1 hx
      exact h.liesAhead hx hhot
    · exact ha e he
  have hmerged : (merged.map Entry.slot).Nodup := hslots ▸ (ordered_candidates h.order hn hd).nodup
  have hin : e ∈ merged := mem_sortByKey.2 he
  have hkept : (b.fill 0 0 merged).1.map Entry.slot = (candidates l new).filter fun s =>
      liesBefore (b.fill 0 0 (candidates l new)).2 s.key := by
    rw [filter_candidates h.order hn hd, hslots, b.fill_map (f := Entry.slot) fun _ => rfl]
  have hpart : ∀ f ∈ (b.fill 0 0 merged).1, f ∈ merged := fun f hf => by
    rw [← b.fill_append 0 0 merged]
    exact List.mem_append_left _ hf
  have hslot : e ∈ (b.fill 0 0 merged).1 ↔ e.slot ∈ (b.fill 0 0 merged).1.map Entry.slot := by
    refine ⟨List.mem_map_of_mem, fun hs => ?_⟩
    obtain ⟨f, hf, hsame⟩ := List.mem_map.1 hs
    rwa [← List.inj_on_of_nodup_map hmerged (hpart f hf) hin hsame]
  rw [stays, hahead, Bool.true_and, hslot, hkept, List.mem_filter, hslots]
  exact (and_iff_right (List.mem_map_of_mem hin)).symm

/-- A put of nothing moves nothing out of memory. -/
theorem stays_nil (h : Layout b l) {x : Held} (hx : x ∈ l) (hh : x.isHot = true) :
    stays b l [] x.entry.key = true := by
  have hin : x.entry ∈ inMemory l := List.mem_map_of_mem (List.mem_filter.2 ⟨hx, hh⟩)
  have hmerged : sortByKey (inMemory l ++ []) = inMemory l := by
    have ho := ordered_inMemory h.order
    exact ho.sortByKey_eq (by simpa using ho.unique) (by simp)
  have hlong := b.longest_fill (inMemory l)
  have hall := hlong.front.eq_of_length
    (Nat.le_antisymm hlong.front.length_le (hlong.longest _ (List.prefix_refl _) h.fits))
  have hiff : stays b l [] x.entry.key = true ↔ _ :=
    stays_iff_mem_fill h (by simp) (by simp) (by simp) (List.mem_append_left _ hin)
  rwa [hiff, hmerged, hall]

/-- What a put leaves in memory, as what fits of the candidates. -/
theorem perm_hot_placed (h : Layout b l) (hn : (new.map Entry.id).Nodup)
    (hd : ∀ e ∈ new, ∀ x ∈ l, x.entry.id ≠ e.id) (durable : Bool) :
    (((placed (stays b l new) durable l new).filter isHot).map Slotted.slot).Perm
      (b.fill 0 0 (candidates l new)).1 := by
  refine List.Perm.trans ?_ (perm_stays h hn hd)
  refine (((perm_sortOrdered servedBefore _).filter isHot).map Slotted.slot).trans (.of_eq ?_)
  rw [List.filter_append, List.filter_map, List.filter_map, List.map_append, List.map_map,
    List.map_map]
  refine congrArg₂ _ (congrArg₂ _ (funext fun x => ?_) (List.filter_congr fun x _ => ?_))
    (congrArg₂ _ (funext fun e => ?_) (List.filter_congr fun e _ => ?_))
  · exact congrArg Entry.slot (entry_settled _ x)
  · exact isHot_settled _ x
  · exact congrArg Entry.slot (entry_fresh _ durable e)
  · exact isHot_fresh _ durable e

/-- The totals of what a put leaves in memory. -/
theorem totals_hot_placed (h : Layout b l) (hn : (new.map Entry.id).Nodup)
    (hd : ∀ e ∈ new, ∀ x ∈ l, x.entry.id ≠ e.id) (durable : Bool) :
    ((placed (stays b l new) durable l new).filter isHot).length =
        (b.fill 0 0 (candidates l new)).1.length ∧
      (((placed (stays b l new) durable l new).filter isHot).map chargeOf).sum =
        ((b.fill 0 0 (candidates l new)).1.map chargeOf).sum := by
  have hperm := perm_hot_placed h hn hd durable
  refine ⟨by rw [← hperm.length_eq, List.length_map], ?_⟩
  rw [← (hperm.map chargeOf).sum_nat, List.map_map]
  rfl

/-- The candidates are at least what was in memory. -/
theorem totals_hot_le (l : List Held) (new : List Entry) :
    (l.filter isHot).length ≤ (candidates l new).length ∧
      ((l.filter isHot).map chargeOf).sum ≤ ((candidates l new).map chargeOf).sum := by
  have hperm : (candidates l new).Perm _ := perm_sortOrdered servedBefore _
  rw [hperm.length_eq, (hperm.map chargeOf).sum_nat, List.length_append, List.length_map,
    List.map_append, List.sum_append, List.map_map]
  exact ⟨Nat.le_add_right _ _, Nat.le_add_right _ _⟩

/-- The first entry that is in the table only. -/
theorem head_cold (h : Ordered l) {c : Held} (hc : (l.filter isCold).head? = some c) :
    (c ∈ l ∧ c.isHot = false) ∧
      ∀ x ∈ l, x.isHot = false → c = x ∨ c.entry.key < x.entry.key := by
  have hmem : ∀ {x : Held}, x ∈ l.filter isCold ↔ x ∈ l ∧ x.isHot = false := fun {x} => by
    rw [List.mem_filter, isCold_eq, Bool.not_eq_true']
  refine ⟨hmem.1 (List.mem_of_mem_head? hc), fun x hx hcold => ?_⟩
  obtain ⟨rest, hrest⟩ := List.head?_eq_some_iff.1 hc
  have hasc := (h.filter isCold).ascending
  have hin := hmem.2 ⟨hx, hcold⟩
  rw [hrest] at hasc hin
  rcases List.mem_cons.1 hin with rfl | hin
  · exact .inl rfl
  · exact .inr ((List.pairwise_cons.1 hasc).1 x hin)

/-- The first candidate that does not fit moves into the table, or stays there. -/
theorem exists_first_out (h : Layout b l) {first : Slot} {rest : List Slot}
    (hcut : (b.fill 0 0 (candidates l new)).2 = first :: rest) (durable : Bool) :
    liesAhead l first.key = true ∧
      ∃ x ∈ placed (stays b l new) durable l new, x.isHot = false ∧ x.entry.slot = first := by
  have hout : stays b l new first.key = false := by
    rw [stays, hcut, Bool.and_eq_false_iff]
    exact .inr (decide_eq_false (Key.lt_irrefl _))
  have hin : first ∈ candidates l new := by
    rw [← b.fill_append 0 0 (candidates l new), hcut]
    exact List.mem_append_right _ (List.mem_cons_self ..)
  rcases List.mem_append.1 (mem_sortByKey.1 hin) with hin | hin
  · obtain ⟨x, hx, rfl⟩ := List.mem_map.1 hin
    rw [List.mem_filter] at hx
    refine ⟨h.liesAhead hx.1 hx.2, settled (stays b l new) x, mem_placed.2 (.inl ⟨x, hx.1, rfl⟩),
      ?_, congrArg Entry.slot (entry_settled _ x)⟩
    rw [isHot_settled, Bool.and_eq_false_iff]
    exact .inr hout
  · obtain ⟨e, he, rfl⟩ := List.mem_map.1 hin
    rw [List.mem_filter] at he
    refine ⟨he.2, Held.fresh (stays b l new) durable e, mem_placed.2 (.inr ⟨e, he.1, rfl⟩), ?_,
      congrArg Entry.slot (entry_fresh _ durable e)⟩
    rw [isHot_fresh]
    exact hout

/-- A put over full memory leaves it full. -/
theorem Layout.brimful_placed (h : Layout b l) (hb : Brimful b l)
    (hn : (new.map Entry.id).Nodup) (hd : ∀ e ∈ new, ∀ x ∈ l, x.entry.id ≠ e.id)
    (durable : Bool) : Brimful b (Spillway.placed (stays b l new) durable l new) := by
  have hline := cut_stays h hn hd
  have horder := (h.placed hn hd hline durable).order
  obtain ⟨hlength, hbytes⟩ := totals_hot_placed h hn hd durable
  have hnone := b.fill_rest 0 0 (candidates l new)
  rw [Nat.zero_add, Nat.zero_add] at hnone
  rw [Brimful, fitting, hlength, hbytes, Bounds.fill_eq_nil_iff]
  intro c hc
  obtain ⟨⟨hcm, hccold⟩, hcfirst⟩ := head_cold horder hc
  have hcout : stays b l new c.entry.key = false :=
    (isHot_of_mem_placed hline hcm).symm.trans hccold
  cases hcut : (b.fill 0 0 (candidates l new)).2 with
  | cons first rest =>
    -- The first candidate that does not fit is the first cold entry now.
    obtain ⟨hahead, z, hz, hzcold, rfl⟩ := exists_first_out h hcut durable
    have hge : ¬ c.entry.key < z.entry.key := by
      intro hlt
      rw [stays, hcut, Bool.and_eq_false_iff] at hcout
      rcases hcout with hcout | hcout
      · obtain ⟨y, hy, hycold, hle⟩ := exists_of_not_liesAhead h.order hcout
        exact hle (Key.lt_trans hlt ((liesAhead_iff h.order).1 hahead y hy hycold))
      · exact of_decide_eq_false hcout hlt
    rw [hcut] at hnone
    rw [(hcfirst z hz hzcold).resolve_right hge]
    exact Bounds.fill_eq_nil_iff.1 hnone _ rfl
  | nil =>
    -- All candidates fit, so the first cold entry is the one for which there was no room before.
    rw [stays, hcut, Bool.and_eq_false_iff] at hcout
    obtain ⟨y, hy, hycold, hle⟩ :=
      exists_of_not_liesAhead h.order (hcout.resolve_right (by simp [liesBefore]))
    have hin : y ∈ l.filter isCold := by rw [List.mem_filter, isCold_eq, hycold]; exact ⟨hy, rfl⟩
    obtain ⟨f, hf⟩ := Option.isSome_iff_exists.1 (List.isSome_head?.2 (List.ne_nil_of_mem hin))
    obtain ⟨⟨hfl, hfcold⟩, hffirst⟩ := head_cold h.order hf
    have hsame : settled (stays b l new) f = f := by
      rw [settled, hfcold]
      rfl
    have hge : ¬ c.entry.key < f.entry.key := by
      intro hlt
      rcases hffirst y hy hycold with rfl | hfy
      · exact hle hlt
      · exact hle (Key.lt_trans hlt hfy)
    have hcf : c = f :=
      (hcfirst f (mem_placed.2 (.inl ⟨f, hfl, hsame⟩)) hfcold).resolve_right hge
    have hall : (b.fill 0 0 (candidates l new)).1 = candidates l new := by
      have := b.fill_append 0 0 (candidates l new)
      rwa [hcut, List.append_nil] at this
    obtain ⟨hle₁, hle₂⟩ := totals_hot_le l new
    rw [hcf, hall]
    exact Bounds.hasRoom_of_le hle₁ hle₂ (Bounds.fill_eq_nil_iff.1 hb f hf)

end

end

end Spillway
