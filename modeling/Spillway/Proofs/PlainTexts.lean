import Mathlib.Data.List.TakeWhile
import Spillway.Text.Blank
import Spillway.Text.Number

/-!
# Plain texts

What trimming and reading a number do, said without the way in which they do it: what is left of a
text are the characters between the blanks at its ends, and a number is read from the digits that
write it.
-/

namespace Spillway

namespace Text

/-- The core of a text: what stands between the blanks at its ends. -/
structure IsCore (cs core : List Char) : Prop where
  /-- There is nothing around it but blanks. -/
  between : ∃ front back, cs = front ++ core ++ back ∧ (∀ c ∈ front, isBlank c = true) ∧
    ∀ c ∈ back, isBlank c = true
  /-- It starts with no blank. -/
  first : ∀ c, core.head? = some c → isBlank c = false
  /-- It ends with no blank. -/
  last : ∀ c, core.getLast? = some c → isBlank c = false

/-- What precedes an unwanted character is not looked into. -/
theorem dropWhile_front {p : Char → Bool} {front rest : List Char} (hf : ∀ c ∈ front, p c = true)
    (hr : ∀ c, rest.head? = some c → p c = false) : (front ++ rest).dropWhile p = rest := by
  rw [List.dropWhile_append_of_pos hf]
  exact dropWhile_eq_self_of_head hr

theorem IsCore.reverse {cs core : List Char} (h : IsCore cs core) :
    IsCore cs.reverse core.reverse := by
  obtain ⟨front, back, rfl, hf, hb⟩ := h.between
  refine ⟨⟨back.reverse, front.reverse, by simp, ?_, ?_⟩, ?_, ?_⟩
  · simpa using hb
  · simpa using hf
  · simpa using h.last
  · simpa using h.first

/-- A text has one core, which is what trimming it leaves. -/
theorem isCore_iff {cs core : List Char} : IsCore cs core ↔ core = trimChars cs := by
  constructor
  · intro h
    obtain ⟨front, back, rfl, hf, hb⟩ := h.between
    cases core with
    | nil =>
      have hall : ∀ c ∈ front ++ back, isBlank c = true := by
        intro c hc
        exact (List.mem_append.1 hc).elim (hf c) (hb c)
      rw [List.append_nil, trimChars, List.dropWhile_eq_nil_iff.2 hall]
      rfl
    | cons c core =>
      have hback : (c :: core ++ back).reverse.dropWhile isBlank = (c :: core).reverse := by
        rw [List.reverse_append]
        exact dropWhile_front (by simpa using hb) h.reverse.first
      have hfront : (front ++ (c :: core ++ back)).dropWhile isBlank = c :: core ++ back :=
        dropWhile_front hf (by simpa using h.first)
      rw [trimChars, List.append_assoc, hfront, hback, List.reverse_reverse]
  · rintro rfl
    let rest := cs.dropWhile isBlank
    have hrest : cs = cs.takeWhile isBlank ++ rest := List.takeWhile_append_dropWhile.symm
    have hends : rest = trimChars cs ++ (rest.reverse.takeWhile isBlank).reverse := by
      rw [trimChars, ← List.reverse_append, List.takeWhile_append_dropWhile, List.reverse_reverse]
    refine ⟨⟨cs.takeWhile isBlank, (rest.reverse.takeWhile isBlank).reverse, ?_, ?_, ?_⟩, ?_, ?_⟩
    · rw [List.append_assoc, ← hends]
      exact hrest
    · exact fun c hc => List.mem_takeWhile_imp hc
    · exact fun c hc => List.mem_takeWhile_imp (List.mem_reverse.1 hc)
    · exact fun c hc => head_dropWhile cs (head_reverse_dropWhile_reverse _ hc)
    · intro c hc
      rw [trimChars, List.getLast?_reverse] at hc
      exact head_dropWhile _ hc

theorem IsCore.mem_iff {cs core : List Char} (h : IsCore cs core) {c : Char}
    (hc : isBlank c = false) : c ∈ core ↔ c ∈ cs := by
  obtain ⟨front, back, rfl, hf, hb⟩ := h.between
  have hfront : c ∉ front := fun hm => by simp [hf c hm] at hc
  have hback : c ∉ back := fun hm => by simp [hb c hm] at hc
  simp [hfront, hback]

/-- Nothing is left exactly of blanks. -/
theorem IsCore.ne_nil_iff {cs core : List Char} (h : IsCore cs core) :
    core ≠ [] ↔ ∃ c ∈ cs, isBlank c = false := by
  constructor
  · intro hne
    obtain ⟨c, rest, rfl⟩ := List.exists_cons_of_ne_nil hne
    have hc := h.first c rfl
    exact ⟨c, (h.mem_iff hc).1 (by simp), hc⟩
  · rintro ⟨c, hm, hc⟩
    exact List.ne_nil_of_mem ((h.mem_iff hc).2 hm)

theorem isCore_trim (s : String) : IsCore s.toList (trim s).toList :=
  isCore_iff.2 (by simp [trim])

/-! ## Numerals -/

theorem digit?_eq_some_iff {c : Char} {d : Nat} :
    digit? c = some d ↔ c.isDigit = true ∧ c.toNat - '0'.toNat = d := by
  have hrange : ('0' ≤ c ∧ c ≤ '9') ↔ c.isDigit = true := by
    simp [Char.isDigit, Char.le_def]
  rw [digit?]
  by_cases h : c.isDigit = true
  · rw [if_pos (hrange.2 h), Option.some.injEq, and_iff_right h]
  · rw [if_neg (mt hrange.1 h)]
    simp [h]

/-- Digits are read as Lean reads them. -/
theorem digitsFrom_eq_some_iff {cs : List Char} {acc n : Nat} :
    digitsFrom acc cs = some n ↔
      (∀ c ∈ cs, c.isDigit = true) ∧ Nat.ofDigitChars 10 cs acc = n := by
  induction cs generalizing acc with
  | nil => simp [digitsFrom, Nat.ofDigitChars]
  | cons c cs ih =>
    unfold digitsFrom
    cases hc : digit? c with
    | none =>
      have : c.isDigit ≠ true := fun h => by
        rw [digit?_eq_some_iff.2 ⟨h, rfl⟩] at hc
        cases hc
      simp [this]
    | some d =>
      obtain ⟨hdigit, rfl⟩ := digit?_eq_some_iff.1 hc
      simp [ih, hdigit, Nat.ofDigitChars]

/-- A decimal number, perhaps with a plus sign. -/
structure Numeral (cs : List Char) (n : Nat) : Prop where
  written : ∃ digits, (cs = digits ∨ cs = '+' :: digits) ∧ digits ≠ [] ∧
    (∀ c ∈ digits, c.isDigit = true) ∧ Nat.ofDigitChars 10 digits 0 = n

theorem digits?_eq_some_iff {cs : List Char} {n : Nat} :
    digits? cs = some n ↔
      cs ≠ [] ∧ (∀ c ∈ cs, c.isDigit = true) ∧ Nat.ofDigitChars 10 cs 0 = n := by
  cases cs with
  | nil => simp [digits?]
  | cons c cs => simpa [digits?] using @digitsFrom_eq_some_iff (c :: cs) 0 n

theorem natUpTo?_eq_some_iff {limit n : Nat} {s : String} :
    natUpTo? limit s = some n ↔ Numeral s.toList n ∧ n ≤ limit := by
  have hplus : ¬ '+'.isDigit = true := by decide
  rw [natUpTo?, Option.filter_eq_some_iff, digits?_eq_some_iff, decide_eq_true_eq]
  refine and_congr_left fun _ => ⟨fun h => ⟨_, ?_, h⟩, fun ⟨ds, hds, h⟩ => ?_⟩
  · split
    · next hs => exact .inr hs
    · exact .inl rfl
  · have hall := h.2.1
    rcases hds with hs | hs <;> rw [hs]
    · split
      · exact absurd (hall '+' (by simp)) hplus
      · exact h
    · exact h

end Text

end Spillway
