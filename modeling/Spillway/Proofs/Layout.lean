import Spillway.Proofs.Totals
import Spillway.Queue.Resident

/-!
# How entries are laid out over memory and table

A cached queue keeps its first entries in memory and the others in the table. Here such a queue is
one ordered list, each entry of it with the place where it is kept and whether it has a row. The
layout is the invariant of the cache: no hot entry behind a cold one, no cold entry without a row,
and no more in memory than the cache bounds allow. Moving entries between memory and table keeps it.
-/

namespace Spillway

/-! ## Filling memory -/

namespace Bounds

variable {α β : Type} [Slotted α] [Slotted β]

/-- What fits into memory keeps within its bounds. -/
theorem fill_room (b : Bounds) {entries bytes : Nat} (he : entries ≤ b.cacheEntries)
    (hb : bytes ≤ b.cacheBytes) (l : List α) :
    entries + (b.fill entries bytes l).1.length ≤ b.cacheEntries ∧
      bytes + ((b.fill entries bytes l).1.map chargeOf).sum ≤ b.cacheBytes := by
  induction l generalizing entries bytes with
  | nil => simpa [fill] using ⟨he, hb⟩
  | cons a l ih =>
    unfold fill
    split
    · next hr =>
      simp only [hasRoom, Bool.and_eq_true, decide_eq_true_eq] at hr
      have := ih (show entries + 1 ≤ b.cacheEntries from hr.1) hr.2
      simp only [List.length_cons, List.map_cons, List.sum_cons]
      omega
    · simpa using ⟨he, hb⟩

/-- Filling looks at slots only. -/
theorem fill_map (b : Bounds) {f : α → β} (hf : ∀ a, Slotted.slot (f a) = Slotted.slot a)
    (entries bytes : Nat) (l : List α) :
    (b.fill entries bytes (l.map f)).1 = (b.fill entries bytes l).1.map f := by
  induction l generalizing entries bytes with
  | nil => rfl
  | cons a l ih =>
    simp only [List.map_cons, fill, chargeOf_apply hf]
    split
    · simp only [ih, List.map_cons]
    · rfl

end Bounds

/-- An entry of a cached queue, where it is kept, and whether it has a row. -/
structure Held where
  /-- The entry. -/
  entry : Entry
  /-- Where it is kept. -/
  tier : Tier
  /-- Whether the table has its row. -/
  stored : Bool

namespace Held

instance : Slotted Held := ⟨fun h => h.entry.slot⟩

/-- What the index knows of it. -/
def resident (h : Held) : Resident := ⟨h.entry.slot, h.tier, h.stored⟩

/-- Whether it is kept in memory. -/
def isHot (h : Held) : Bool := h.resident.isHot

/-- Whether it is kept in the table only. -/
def isCold (h : Held) : Bool := h.resident.isCold

/-- Whether its row is held back. -/
def isPending (h : Held) : Bool := h.resident.isPending

/-- It, kept in memory from now on. -/
def heated (h : Held) : Held := { h with tier := .hot }

/-- It, kept in the table only from now on. -/
def cooled (h : Held) : Held := { h with tier := .cold, stored := true }

/-- It, now that it has a row. -/
def written (h : Held) : Held := { h with stored := true }

/-- It, changed if it has one of some ids. -/
def onIds (ids : List UInt64) (f : Held → Held) (h : Held) : Held :=
  if h.entry.id ∈ ids then f h else h

/-- A change that leaves entries leaves them under some ids too. -/
theorem entry_onIds {ids : List UInt64} {f : Held → Held} (hf : ∀ x, (f x).entry = x.entry)
    (x : Held) : (onIds ids f x).entry = x.entry := by
  unfold onIds
  split
  · exact hf x
  · rfl

/-- Whether it has a row, next to it. -/
def fact (h : Held) : Entry × Bool := (h.entry, h.stored)

/-- What is not in memory is in the table only. -/
theorem isCold_eq (h : Held) : h.isCold = !h.isHot := by
  unfold isCold isHot resident Resident.isCold Resident.isHot
  cases h.tier <;> rfl

end Held

open Held

/-- The entries of a list that are kept in memory. -/
def inMemory (l : List Held) : List Entry := (l.filter isHot).map Held.entry

/-- The entries of a list that have a row. -/
def inTable (l : List Held) : List Entry := (l.filter (·.stored)).map Held.entry

/-- An ordered list with its first entries in memory, as far as they fit, and rows for all others.
-/
structure Layout (b : Bounds) (l : List Held) : Prop where
  /-- The list stands in the order of service, each id once. -/
  order : Ordered l
  /-- What is not kept in memory has a row. -/
  rows : ∀ h ∈ l, h.isHot = false → h.stored = true
  /-- What is kept in memory is served before what is not. -/
  front : ∀ h ∈ l, ∀ c ∈ l, h.isHot = true → c.isHot = false → keyOf h < keyOf c
  /-- Memory keeps within the cache bound on entries. -/
  entries : (l.filter isHot).length ≤ b.cacheEntries
  /-- Memory keeps within the cache bound on bytes. -/
  bytes : ((l.filter isHot).map chargeOf).sum ≤ b.cacheBytes

/-- The two lists hold the same entries with the same rows. -/
def SameRows (l m : List Held) : Prop := m.map fact = l.map fact

section

variable {b : Bounds} {l m : List Held}

/-- A list has the same rows as itself. -/
theorem SameRows.refl (l : List Held) : SameRows l l := rfl

/-- Lists of the same rows have the same entries. -/
theorem SameRows.entries (h : SameRows l m) : m.map Held.entry = l.map Held.entry := by
  have he : ∀ n : List Held, n.map Held.entry = (n.map fact).map Prod.fst := fun n => by
    rw [List.map_map]
    rfl
  rw [he, he, h]

/-- The same entries of them have a row. -/
theorem SameRows.inTable (h : SameRows l m) : inTable m = inTable l := by
  have he : ∀ n : List Held, Spillway.inTable n =
      ((n.map fact).filter (·.2)).map Prod.fst := fun n => by
    rw [List.filter_map, List.map_map]
    rfl
  rw [he, he, h]

/-- The same rows are held back. -/
theorem SameRows.pending (h : SameRows l m) :
    (m.filter isPending).map idOf = (l.filter isPending).map idOf := by
  have he : ∀ n : List Held, (n.filter isPending).map idOf =
      ((n.map fact).filter fun p => p.1.persistent && !p.2).map fun p => p.1.id := fun n => by
    rw [List.filter_map, List.map_map]
    rfl
  rw [he, he, h]

/-- To bring entries into memory leaves their rows. -/
theorem sameRows_heated (ids : List UInt64) (l : List Held) :
    SameRows l (l.map (onIds ids heated)) := by
  rw [SameRows, List.map_map]
  refine List.map_congr_left fun x _ => ?_
  change fact (onIds ids heated x) = _
  unfold onIds
  split <;> rfl

/-- A list is ordered as its entries are. -/
theorem ordered_entries : Ordered (l.map Held.entry) ↔ Ordered l := ordered_map_iff fun _ _ => rfl

/-- And as what the index knows of it is. -/
theorem ordered_residents : Ordered (l.map resident) ↔ Ordered l := ordered_map_iff fun _ _ => rfl

/-- What is in memory is ordered. -/
theorem ordered_inMemory (h : Ordered l) : Ordered (inMemory l) :=
  ordered_entries.2 (h.filter _)

/-- What has a row is ordered. -/
theorem ordered_inTable (h : Ordered l) : Ordered (inTable l) :=
  ordered_entries.2 (h.filter _)

/-- The sizes of part of a list add up to no more than those of the list. -/
theorem sum_charge_le {α : Type} [Slotted α] {m l : List α} (h : m.Sublist l) :
    (m.map chargeOf).sum ≤ (l.map chargeOf).sum := by
  induction h with
  | slnil => exact Nat.le_refl _
  | cons a _ ih => rw [List.map_cons, List.sum_cons]; omega
  | cons_cons a _ ih => rw [List.map_cons, List.sum_cons, List.map_cons, List.sum_cons]; omega

/-- Changes that leave the entries leave their sizes. -/
theorem map_chargeOf {f : Held → Held} (he : ∀ x, (f x).entry = x.entry) (l : List Held) :
    (l.map f).map chargeOf = l.map chargeOf := by
  rw [List.map_map]
  refine List.map_congr_left fun x _ => ?_
  change (f x).entry.slot.size.toNat = x.entry.slot.size.toNat
  rw [he x]

/-- Changes that leave the entries leave the order. -/
theorem ordered_map {f : Held → Held} (he : ∀ x, (f x).entry = x.entry) (h : Ordered l) :
    Ordered (l.map f) := by
  have hk : ∀ x, keyOf (f x) = keyOf x := fun x => congrArg Entry.key (he x)
  exact (ordered_map_iff fun x _ => hk x).2 h

/-- What of a list is served before the rest of it can be told by the ids. -/
theorem filter_ids_prefix {kept rest : List Held} (h : Ordered (kept ++ rest)) :
    ((kept ++ rest).filter fun x => decide (x.entry.id ∈ kept.map idOf)) = kept := by
  have hu := h.unique
  rw [List.map_append, List.nodup_append] at hu
  have hkept : (kept.filter fun x => decide (x.entry.id ∈ kept.map idOf)) = kept :=
    List.filter_eq_self.2 fun x hx => decide_eq_true (List.mem_map_of_mem (f := idOf) hx)
  have hrest : (rest.filter fun x => decide (x.entry.id ∈ kept.map idOf)) = [] :=
    List.filter_eq_nil_iff.2 fun x hx hm =>
      hu.2.2 _ (of_decide_eq_true hm) _ (List.mem_map_of_mem (f := idOf) hx) rfl
  rw [List.filter_append, hkept, hrest, List.append_nil]

/-- So can the rest of it. -/
theorem filter_ids_rest {kept rest : List Held} (h : Ordered (kept ++ rest)) :
    ((kept ++ rest).filter fun x => !decide (x.entry.id ∈ kept.map idOf)) = rest := by
  have hu := h.unique
  rw [List.map_append, List.nodup_append] at hu
  have hkept : (kept.filter fun x => !decide (x.entry.id ∈ kept.map idOf)) = [] :=
    List.filter_eq_nil_iff.2 fun x hx hm => by
      have hin : x.entry.id ∈ kept.map idOf := List.mem_map_of_mem (f := idOf) hx
      simp [hin] at hm
  have hrest : (rest.filter fun x => !decide (x.entry.id ∈ kept.map idOf)) = rest :=
    List.filter_eq_self.2 fun x hx => by
      have hout : x.entry.id ∉ kept.map idOf := fun hm =>
        hu.2.2 _ hm _ (List.mem_map_of_mem (f := idOf) hx) rfl
      simp [hout]
  rw [List.filter_append, hkept, hrest, List.nil_append]

/-- The first cold entries, as far as they fit into memory, and the others. -/
def fitting (b : Bounds) (l : List Held) : List Held × List Held :=
  b.fill (l.filter isHot).length ((l.filter isHot).map chargeOf).sum (l.filter isCold)

/-- The ids of the first cold entries that fit into memory. -/
def promotable (b : Bounds) (l : List Held) : List UInt64 := (fitting b l).1.map idOf

/-- What fits and what does not make up all that is cold. -/
theorem fitting_append (b : Bounds) (l : List Held) :
    (fitting b l).1 ++ (fitting b l).2 = l.filter isCold := b.fill_append _ _ _

/-- What can be promoted is what fits of the cold entries. -/
theorem filter_promotable (h : Ordered l) :
    ((l.filter isCold).filter fun x => decide (x.entry.id ∈ promotable b l)) =
      (fitting b l).1 := by
  have ho := h.filter isCold
  rw [← fitting_append b l] at ho ⊢
  exact filter_ids_prefix ho

/-- A cold entry is among those that fit exactly if it can be promoted. -/
theorem mem_fitting (h : Ordered l) {x : Held} (hx : x ∈ l) (hc : x.isHot = false) :
    x ∈ (fitting b l).1 ↔ x.entry.id ∈ promotable b l := by
  rw [← filter_promotable h, List.mem_filter, List.mem_filter, isCold_eq, hc, decide_eq_true_eq]
  simp [hx]

/-- What can be promoted is cold. -/
theorem exists_of_promotable {id : UInt64} (h : id ∈ promotable b l) :
    ∃ x ∈ l, x.isHot = false ∧ x.entry.id = id := by
  obtain ⟨x, hx, rfl⟩ := List.mem_map.1 h
  have hx : x ∈ l.filter isCold := by
    rw [← fitting_append b l]
    exact List.mem_append_left _ hx
  rw [List.mem_filter, isCold_eq] at hx
  exact ⟨x, hx.1, by simpa using hx.2, rfl⟩

/-- No id can be promoted twice. -/
theorem nodup_promotable (h : Ordered l) : (promotable b l).Nodup := by
  have hu := (h.filter isCold).unique
  rw [← fitting_append b l, List.map_append] at hu
  exact hu.of_append_left

/-- Heating makes exactly the given entries hot. -/
theorem isHot_heated (ids : List UInt64) (x : Held) :
    (onIds ids heated x).isHot = (x.isHot || decide (x.entry.id ∈ ids)) := by
  unfold onIds
  split
  · next hx => simp [hx, heated, isHot, resident, Resident.isHot]
  · next hx => simp [hx]

namespace Layout

/-- Nothing at all is laid out. -/
theorem nil (b : Bounds) : Layout b [] :=
  ⟨.nil, by simp, by simp, by simp, by simp⟩

/-- Taking entries out keeps the layout. -/
theorem filter (h : Layout b l) (p : Held → Bool) : Layout b (l.filter p) := by
  have hs : ((l.filter p).filter isHot).Sublist (l.filter isHot) := List.filter_sublist.filter _
  refine ⟨h.order.filter p, fun x hx => h.rows x (List.mem_filter.1 hx).1,
    fun x hx c hc => h.front x (List.mem_filter.1 hx).1 c (List.mem_filter.1 hc).1,
    Nat.le_trans hs.length_le h.entries, Nat.le_trans (sum_charge_le hs) h.bytes⟩

/-- Changing what does not move and stays where it is kept keeps the layout, unless a row is lost.
-/
theorem map (h : Layout b l) {f : Held → Held} (he : ∀ x, (f x).entry = x.entry)
    (ht : ∀ x, (f x).isHot = x.isHot) (hs : ∀ x, x.stored = true → (f x).stored = true) :
    Layout b (l.map f) := by
  have hk : ∀ x, keyOf (f x) = keyOf x := fun x => congrArg Entry.key (he x)
  have hf : (l.map f).filter isHot = (l.filter isHot).map f := by
    rw [List.filter_map]
    exact congrArg _ (List.filter_congr fun x _ => ht x)
  refine ⟨ordered_map he h.order, ?_, ?_, ?_, ?_⟩
  · intro y hy hcold
    obtain ⟨x, hx, rfl⟩ := List.mem_map.1 hy
    exact hs x (h.rows x hx (ht x ▸ hcold))
  · intro y hy c hc hhot hcold
    obtain ⟨x, hx, rfl⟩ := List.mem_map.1 hy
    obtain ⟨z, hz, rfl⟩ := List.mem_map.1 hc
    rw [hk, hk]
    exact h.front x hx z hz (ht x ▸ hhot) (ht z ▸ hcold)
  · rw [hf, List.length_map]
    exact h.entries
  · rw [hf, map_chargeOf he]
    exact h.bytes

/-- Once what can be promoted is heated, memory has what it had and what fits. -/
theorem perm_heated (h : Ordered l) :
    (l.filter fun x => (onIds (promotable b l) heated x).isHot).Perm
      (l.filter isHot ++ (fitting b l).1) := by
  have hs := perm_filter_or isHot (fun x => decide (x.entry.id ∈ promotable b l)) l
  rw [← filter_promotable h, List.filter_filter]
  refine cast (congrArg₂ List.Perm ?_ (congrArg _ ?_)) hs.symm
  · exact List.filter_congr fun x _ => (isHot_heated _ x).symm
  · exact List.filter_congr fun x _ => by rw [isCold_eq, Bool.and_comm]

/-- What can be promoted is served before what is cold and cannot. -/
theorem lt_of_promotable (h : Ordered l) {x c : Held} (hx : x ∈ l) (hc : c ∈ l)
    (hx' : x.isHot = false) (hc' : c.isHot = false) (hp : x.entry.id ∈ promotable b l)
    (hn : c.entry.id ∉ promotable b l) : keyOf x < keyOf c := by
  have hin : x ∈ (fitting b l).1 := (mem_fitting h hx hx').2 hp
  have hout : c ∈ (fitting b l).2 := by
    have hcold : c ∈ (fitting b l).1 ++ (fitting b l).2 := by
      rw [fitting_append, List.mem_filter, isCold_eq, hc']
      exact ⟨hc, rfl⟩
    exact (List.mem_append.1 hcold).resolve_left fun hk => hn ((mem_fitting h hc hc').1 hk)
  have hasc := (h.filter isCold).ascending
  rw [← fitting_append b l] at hasc
  exact (List.pairwise_append.1 hasc).2.2 x hin c hout

/-- Copying the first cold entries that fit into memory keeps the layout. -/
theorem heat (h : Layout b l) : Layout b (l.map (onIds (promotable b l) heated)) := by
  let f := onIds (promotable b l) heated
  have hentry : ∀ x, (f x).entry = x.entry := entry_onIds fun _ => rfl
  have hkey : ∀ x, keyOf (f x) = keyOf x := fun x => congrArg Entry.key (hentry x)
  have hhot : ∀ x, (f x).isHot = (x.isHot || decide (x.entry.id ∈ promotable b l)) :=
    isHot_heated _
  have hstored : ∀ x, (f x).stored = x.stored := fun x => by
    change (onIds (promotable b l) heated x).stored = _
    unfold onIds
    split <;> rfl
  have hroom := b.fill_room h.entries h.bytes (l.filter isCold)
  have hfilter : (l.map f).filter isHot = (l.filter fun x => (f x).isHot).map f := by
    rw [List.filter_map]
    rfl
  refine ⟨ordered_map hentry h.order, ?_, ?_, ?_, ?_⟩
  · intro y hy hc
    obtain ⟨x, hx, rfl⟩ := List.mem_map.1 hy
    rw [hhot, Bool.or_eq_false_iff] at hc
    rw [hstored]
    exact h.rows x hx hc.1
  · intro y hy z hz hh hc
    obtain ⟨x, hx, rfl⟩ := List.mem_map.1 hy
    obtain ⟨c, hcl, rfl⟩ := List.mem_map.1 hz
    rw [hhot, Bool.or_eq_false_iff, decide_eq_false_iff_not] at hc
    rw [hkey, hkey]
    cases hx' : x.isHot with
    | true => exact h.front x hx c hcl hx' hc.1
    | false =>
      rw [hhot, hx', Bool.false_or, decide_eq_true_eq] at hh
      exact lt_of_promotable h.order hx hcl hx' hc.1 hh hc.2
  · rw [hfilter, List.length_map, (perm_heated h.order).length_eq, List.length_append]
    exact hroom.1
  · rw [hfilter, map_chargeOf hentry, ((perm_heated h.order).map chargeOf).sum_nat,
      List.map_append, List.sum_append]
    exact hroom.2

end Layout

/-- What is kept in memory comes first. -/
theorem Layout.split (h : Layout b l) : l.filter isHot ++ l.filter isCold = l := by
  refine Ascending.ext ?_ h.order.ascending fun x => ?_
  · refine List.pairwise_append.2
      ⟨(h.order.filter _).ascending, (h.order.filter _).ascending, fun x hx c hc => ?_⟩
    rw [List.mem_filter] at hx hc
    rw [isCold_eq, Bool.not_eq_true'] at hc
    exact h.front x hx.1 c hc.1 hx.2 hc.2
  · rw [List.mem_append, List.mem_filter, List.mem_filter, isCold_eq]
    cases x.isHot <;> simp

/-! ## Placing new entries -/

/-- Whether a key lies before a list, all of which does not fit. -/
def liesBefore (rest : List Slot) (key : Key) : Bool := rest.head?.all fun first => key < first.key

/-- Whether a key lies before all that is in the table only. -/
def liesAhead (l : List Held) (key : Key) : Bool :=
  ((l.filter isCold).head?.map keyOf).all (key < ·)

/-- The entries in memory and the new ones that may join them, as slots in the order of service. -/
def candidates (l : List Held) (new : List Entry) : List Slot :=
  sortByKey ((l.filter isHot).map Slotted.slot ++ (new.filter (liesAhead l ·.key)).map Entry.slot)

/-- Whether what stands under a key is in memory once new entries were put. -/
def stays (b : Bounds) (l : List Held) (new : List Entry) (key : Key) : Bool :=
  liesAhead l key && liesBefore (b.fill 0 0 (candidates l new)).2 key

/-- An entry that was there before a put. -/
def Held.settled (stay : Key → Bool) (h : Held) : Held :=
  if h.isHot && !stay h.entry.key then h.cooled else h

/-- An entry that a put brings; its row may have been held back. -/
def Held.fresh (stay : Key → Bool) (durable : Bool) (e : Entry) : Held :=
  if stay e.key then ⟨e, .hot, e.persistent && durable⟩ else ⟨e, .cold, true⟩

/-- What is held once new entries were put. -/
def placed (stay : Key → Bool) (durable : Bool) (l : List Held) (new : List Entry) : List Held :=
  sortByKey (l.map (settled stay) ++ new.map (fresh stay durable))

/-- A line through the order of service: what lies before it fits into memory, and nothing that is
in the table only does. -/
structure Cut (b : Bounds) (l : List Held) (new : List Entry) (stay : Key → Bool) : Prop where
  /-- It is a line. -/
  line : ∀ k k', stay k = true → stay k' = false → k < k'
  /-- What is in the table only lies behind it. -/
  behind : ∀ x ∈ l, x.isHot = false → stay x.entry.key = false
  /-- What lies before it fits by number. -/
  entries : (l.filter fun x => x.isHot && stay x.entry.key).length +
    (new.filter (stay ·.key)).length ≤ b.cacheEntries
  /-- What lies before it fits by size. -/
  bytes : ((l.filter fun x => x.isHot && stay x.entry.key).map chargeOf).sum +
    ((new.filter (stay ·.key)).map chargeOf).sum ≤ b.cacheBytes

/-- What lies before the part of an ordered list that does not fit is the part that fits. -/
theorem filter_liesBefore {kept rest : List Slot} (h : Ascending (kept ++ rest)) :
    ((kept ++ rest).filter fun s => liesBefore rest s.key) = kept := by
  have hp := List.pairwise_append.1 h
  cases rest with
  | nil => simp [liesBefore]
  | cons first rest =>
    have hkept : (kept.filter fun s => liesBefore (first :: rest) s.key) = kept :=
      List.filter_eq_self.2 fun s hs => decide_eq_true (hp.2.2 s hs first (List.mem_cons_self ..))
    have hrest : ((first :: rest).filter fun s => liesBefore (first :: rest) s.key) = [] := by
      refine List.filter_eq_nil_iff.2 fun s hs hlt => ?_
      have hlt : s.key < first.key := of_decide_eq_true hlt
      rcases List.mem_cons.1 hs with rfl | hs
      · exact Key.lt_irrefl _ hlt
      · exact Key.lt_asymm hlt ((List.pairwise_cons.1 hp.2.1).1 s hs)
    rw [List.filter_append, hkept, hrest, List.append_nil]

/-- A key lies ahead if it is served before all that is cold. -/
theorem liesAhead_iff (h : Ordered l) {key : Key} :
    liesAhead l key = true ↔ ∀ c ∈ l, c.isHot = false → key < c.entry.key := by
  have hasc := (h.filter isCold).ascending
  have hmem : ∀ c, c ∈ l.filter isCold ↔ c ∈ l ∧ c.isHot = false := fun c => by
    rw [List.mem_filter, isCold_eq]
    simp
  unfold liesAhead
  cases hc : l.filter isCold with
  | nil =>
    simp only [List.head?_nil, Option.map_none, Option.all_none, true_iff]
    intro c hcl hh
    have := (hmem c).2 ⟨hcl, hh⟩
    rw [hc] at this
    cases this
  | cons first rest =>
    rw [hc] at hasc
    simp only [List.head?_cons, Option.map_some, Option.all_some, decide_eq_true_eq]
    constructor
    · intro hlt c hcl hh
      have hin := (hmem c).2 ⟨hcl, hh⟩
      rw [hc] at hin
      rcases List.mem_cons.1 hin with rfl | hin
      · exact hlt
      · exact Key.lt_trans hlt ((List.pairwise_cons.1 hasc).1 c hin)
    · intro hall
      have hin := (hmem first).1 (hc ▸ List.mem_cons_self ..)
      exact hall first hin.1 hin.2

/-- The candidates for memory are ordered: those in memory and the new ones have no id in common. -/
theorem ordered_candidates (h : Ordered l) {new : List Entry} (hn : (new.map Entry.id).Nodup)
    (hd : ∀ e ∈ new, ∀ x ∈ l, x.entry.id ≠ e.id) : Ordered (candidates l new) := by
  refine ordered_sortByKey (nodup_ids_append ?_ ?_ ?_)
  · rw [List.map_map]
    exact (h.filter isHot).unique
  · rw [List.map_map]
    exact hn.sublist (List.filter_sublist.map _)
  · intro s hs t ht
    obtain ⟨e, he, rfl⟩ := List.mem_map.1 hs
    obtain ⟨x, hx, rfl⟩ := List.mem_map.1 ht
    exact hd e (List.mem_filter.1 he).1 x (List.mem_filter.1 hx).1

/-- What is hot lies ahead of all that is cold. -/
theorem Layout.liesAhead (h : Layout b l) {x : Held} (hx : x ∈ l) (hh : x.isHot = true) :
    liesAhead l x.entry.key = true :=
  (liesAhead_iff h.order).2 fun c hc hcold => h.front x hx c hc hh hcold

/-- What lies before the candidates that do not fit are those that fit. -/
theorem filter_candidates (h : Ordered l) {new : List Entry} (hn : (new.map Entry.id).Nodup)
    (hd : ∀ e ∈ new, ∀ x ∈ l, x.entry.id ≠ e.id) : (candidates l new).filter
      (fun s => liesBefore (b.fill 0 0 (candidates l new)).2 s.key) =
        (b.fill 0 0 (candidates l new)).1 := by
  have happ := b.fill_append 0 0 (candidates l new)
  have := filter_liesBefore (happ ▸ (ordered_candidates h hn hd).ascending)
  rwa [happ] at this

/-- What stays in memory, old and new, is what fits of the candidates. -/
theorem perm_stays (h : Layout b l) {new : List Entry} (hn : (new.map Entry.id).Nodup)
    (hd : ∀ e ∈ new, ∀ x ∈ l, x.entry.id ≠ e.id) :
    ((l.filter fun x => x.isHot && stays b l new x.entry.key).map Slotted.slot ++
      (new.filter (stays b l new ·.key)).map Entry.slot).Perm
      (b.fill 0 0 (candidates l new)).1 := by
  rw [← filter_candidates h.order hn hd]
  refine List.Perm.trans (.of_eq ?_) ((perm_sortOrdered servedBefore _).filter _).symm
  rw [List.filter_append, List.filter_map, List.filter_map, List.filter_filter, List.filter_filter]
  refine congrArg₂ _ (congrArg _ (List.filter_congr fun x hx => ?_))
    (congrArg _ (List.filter_congr fun e _ => ?_))
  · cases hh : x.isHot with
    | false => simp
    | true =>
      change stays b l new x.entry.key = _
      rw [stays, h.liesAhead hx hh]
      simp only [Bool.true_and, Bool.and_true]
      rfl
  · exact Bool.and_comm ..

/-- Being before a bound, where there is one, draws a line. -/
theorem lt_of_before {bound : Option Key} {k k' : Key} (hk : bound.all (k < ·) = true)
    (hk' : bound.all (k' < ·) = false) : k < k' := by
  cases bound with
  | none => cases hk'
  | some first =>
    have hk : k < first := of_decide_eq_true hk
    have hk' : ¬ k' < first := of_decide_eq_false hk'
    rcases Key.lt_trichotomy first k' with hlt | rfl | hlt
    · exact Key.lt_trans hk hlt
    · exact hk
    · exact absurd hlt hk'

/-- The line that a put draws. -/
theorem cut_stays (h : Layout b l) {new : List Entry} (hn : (new.map Entry.id).Nodup)
    (hd : ∀ e ∈ new, ∀ x ∈ l, x.entry.id ≠ e.id) : Cut b l new (stays b l new) := by
  have hstay := perm_stays h hn hd
  have hroom := b.fill_room (Nat.zero_le _) (Nat.zero_le _) (candidates l new)
  rw [Nat.zero_add, Nat.zero_add] at hroom
  refine ⟨fun k k' hk hk' => ?_, fun x hx hc => ?_, ?_, ?_⟩
  · obtain ⟨hk₁, hk₂⟩ := Bool.and_eq_true_iff.1 hk
    rcases Bool.and_eq_false_iff.1 hk' with hk' | hk'
    · exact lt_of_before hk₁ hk'
    · rw [liesBefore, ← Option.all_map (f := Slot.key) (p := (_ < ·))] at hk₂ hk'
      exact lt_of_before hk₂ hk'
  · rw [stays, Bool.and_eq_false_iff]
    refine .inl (Bool.eq_false_iff.2 fun ha => ?_)
    exact Key.lt_irrefl _ ((liesAhead_iff h.order).1 ha x hx hc)
  · have hlength := hstay.length_eq
    rw [List.length_append, List.length_map, List.length_map] at hlength
    exact hlength ▸ hroom.1
  · have hsum := (hstay.map chargeOf).sum_nat
    rw [List.map_append, List.map_map, List.map_map, List.sum_append] at hsum
    exact Nat.le_trans (Nat.le_of_eq hsum) hroom.2

/-- What settles keeps its entry, wherever it is kept then. -/
theorem entry_settled (stay : Key → Bool) (x : Held) : (settled stay x).entry = x.entry := by
  unfold settled
  split <;> rfl

/-- What is new is what was put. -/
theorem entry_fresh (stay : Key → Bool) (durable : Bool) (e : Entry) :
    (Held.fresh stay durable e).entry = e := by
  unfold Held.fresh
  split <;> rfl

/-- What settles is in memory if it was there and stays. -/
theorem isHot_settled (stay : Key → Bool) (x : Held) :
    (settled stay x).isHot = (x.isHot && stay x.entry.key) := by
  unfold settled
  split
  · next hc =>
    obtain ⟨-, hs⟩ := Bool.and_eq_true_iff.1 hc
    rw [show stay x.entry.key = false by simpa using hs, Bool.and_false]
    rfl
  · next hc =>
    cases hh : x.isHot with
    | false => rfl
    | true => simpa [hh] using hc

/-- What is new is in memory if it stays. -/
theorem isHot_fresh (stay : Key → Bool) (durable : Bool) (e : Entry) :
    (Held.fresh stay durable e).isHot = stay e.key := by
  unfold Held.fresh
  cases stay e.key <;> rfl

section

variable {stay : Key → Bool} {new : List Entry}

/-- After a put there is what settled and what is new. -/
theorem mem_placed {durable : Bool} {x : Held} : x ∈ placed stay durable l new ↔
    (∃ y ∈ l, settled stay y = x) ∨ ∃ e ∈ new, Held.fresh stay durable e = x := by
  rw [placed, mem_sortByKey, List.mem_append, List.mem_map, List.mem_map]

/-- A put keeps the order. -/
theorem ordered_placed (h : Ordered l) (hn : (new.map Entry.id).Nodup)
    (hd : ∀ e ∈ new, ∀ x ∈ l, x.entry.id ≠ e.id) (durable : Bool) :
    Ordered (placed stay durable l new) := by
  have hnew : (new.map (Held.fresh stay durable)).map idOf = new.map Entry.id := by
    rw [List.map_map]
    exact List.map_congr_left fun e _ => congrArg Entry.id (entry_fresh stay durable e)
  refine ordered_sortByKey (nodup_ids_append ?_ (hnew ▸ hn) ?_)
  · exact (ordered_map (entry_settled stay) h).unique
  · intro y hy z hz
    obtain ⟨e, he, rfl⟩ := List.mem_map.1 hy
    obtain ⟨x, hx, rfl⟩ := List.mem_map.1 hz
    change (settled stay x).entry.id ≠ (Held.fresh stay durable e).entry.id
    rw [entry_settled, entry_fresh]
    exact hd e he x hx

/-- After a put the line tells what is in memory. -/
theorem isHot_of_mem_placed (hc : Cut b l new stay) {durable : Bool} {x : Held}
    (hx : x ∈ placed stay durable l new) : x.isHot = stay x.entry.key := by
  rcases mem_placed.1 hx with ⟨y, hy, rfl⟩ | ⟨e, he, rfl⟩
  · rw [isHot_settled, entry_settled]
    cases hh : y.isHot with
    | true => rfl
    | false => exact (hc.behind y hy hh).symm
  · rw [isHot_fresh, entry_fresh]

/-- A put keeps the layout. -/
theorem Layout.placed (h : Layout b l) (hn : (new.map Entry.id).Nodup)
    (hd : ∀ e ∈ new, ∀ x ∈ l, x.entry.id ≠ e.id) (hc : Cut b l new stay) (durable : Bool) :
    Layout b (placed stay durable l new) := by
  have hperm : ((Spillway.placed stay durable l new).filter isHot).Perm
      ((l.filter fun x => x.isHot && stay x.entry.key).map (settled stay) ++
        (new.filter (stay ·.key)).map (Held.fresh stay durable)) := by
    refine ((perm_sortOrdered servedBefore _).filter isHot).trans (.of_eq ?_)
    rw [List.filter_append, List.filter_map, List.filter_map]
    exact congrArg₂ _ (congrArg _ (List.filter_congr fun x _ => isHot_settled stay x))
      (congrArg _ (List.filter_congr fun e _ => isHot_fresh stay durable e))
  refine ⟨ordered_placed h.order hn hd durable, ?_, ?_, ?_, ?_⟩
  · intro x hx hcold
    rcases mem_placed.1 hx with ⟨y, hy, rfl⟩ | ⟨e, -, rfl⟩
    · unfold settled at hcold ⊢
      split
      · rfl
      · next hs =>
        rw [if_neg hs] at hcold
        exact h.rows y hy hcold
    · unfold Held.fresh at hcold ⊢
      split
      · next hs =>
        rw [if_pos hs] at hcold
        cases hcold
      · rfl
  · intro x hx c hc' hhot hcold
    rw [isHot_of_mem_placed hc hx] at hhot
    rw [isHot_of_mem_placed hc hc'] at hcold
    exact hc.line _ _ hhot hcold
  · rw [hperm.length_eq, List.length_append, List.length_map, List.length_map]
    exact hc.entries
  · have hnew : chargeOf ∘ Held.fresh stay durable = chargeOf := funext fun e =>
      congrArg (fun e => (Entry.slot e).size.toNat) (entry_fresh stay durable e)
    rw [(hperm.map chargeOf).sum_nat, List.map_append, map_chargeOf (entry_settled stay),
      List.map_map, List.sum_append, hnew]
    exact hc.bytes

/-- After a put there are the entries from before and the new ones. -/
theorem entries_placed (h : Ordered l) (hn : (new.map Entry.id).Nodup)
    (hd : ∀ e ∈ new, ∀ x ∈ l, x.entry.id ≠ e.id) (durable : Bool) :
    (placed stay durable l new).map Held.entry = sortByKey (l.map Held.entry ++ new) := by
  refine ((ordered_entries.2 (ordered_placed h hn hd durable)).sortByKey_eq ?_ fun e => ?_).symm
  · refine nodup_ids_append (ordered_entries.2 h).unique hn fun e he f hf => ?_
    obtain ⟨x, hx, rfl⟩ := List.mem_map.1 hf
    exact hd e he x hx
  · rw [List.mem_append, List.mem_map, List.mem_map]
    constructor
    · rintro (⟨x, hx, rfl⟩ | he)
      · exact ⟨settled stay x, mem_placed.2 (.inl ⟨x, hx, rfl⟩), entry_settled stay x⟩
      · exact ⟨Held.fresh stay durable e, mem_placed.2 (.inr ⟨e, he, rfl⟩),
          entry_fresh stay durable e⟩
    · rintro ⟨x, hx, rfl⟩
      rcases mem_placed.1 hx with ⟨y, hy, rfl⟩ | ⟨e, he, rfl⟩
      · exact .inl ⟨y, hy, (entry_settled stay y).symm⟩
      · rw [entry_fresh]
        exact .inr he

end

end

end Spillway
