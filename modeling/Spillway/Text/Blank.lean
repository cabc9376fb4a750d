/-!
# Blank characters

The characters with the Unicode property `White_Space`, and the removal of blanks from both
ends of a text. Main statement: trimming twice is trimming once.
-/

namespace Spillway.Text

/-- The characters that carry the Unicode property `White_Space`. -/
def isBlank (c : Char) : Bool :=
  let n := c.toNat
  (9 ≤ n && n ≤ 13) || n == 0x20 || n == 0x85 || n == 0xA0 || n == 0x1680 ||
    (0x2000 ≤ n && n ≤ 0x200A) || n == 0x2028 || n == 0x2029 || n == 0x202F ||
    n == 0x205F || n == 0x3000

/-- Drop the blanks at both ends. -/
def trimChars (cs : List Char) : List Char :=
  ((cs.dropWhile isBlank).reverse.dropWhile isBlank).reverse

/-- The text without the blanks at its ends. -/
def trim (s : String) : String := String.ofList (trimChars s.toList)

/-- What is left by dropping does not start with a dropped character. -/
theorem dropWhile_eq_self_of_head {p : Char → Bool} :
    ∀ {cs : List Char}, (∀ c, cs.head? = some c → p c = false) → cs.dropWhile p = cs
  | [], _ => rfl
  | c :: cs, h => by simp [h c rfl]

/-- Dropping leaves a text whose first character is kept. -/
theorem head_dropWhile {p : Char → Bool} (cs : List Char) {c : Char}
    (h : (cs.dropWhile p).head? = some c) : p c = false := by
  induction cs with
  | nil => simp at h
  | cons d cs ih =>
    cases hd : p d with
    | true => exact ih (by simpa [List.dropWhile_cons, hd] using h)
    | false =>
      simp [hd] at h
      exact h ▸ hd

/-- Dropping at the back does not uncover a blank at the front. -/
theorem head_reverse_dropWhile_reverse {p : Char → Bool} (cs : List Char) {c : Char}
    (h : ((cs.reverse.dropWhile p).reverse).head? = some c) : cs.head? = some c := by
  have hs : cs.reverse.dropWhile p <:+ cs.reverse := List.dropWhile_suffix p
  have hp : (cs.reverse.dropWhile p).reverse <+: cs := by
    simpa using List.reverse_prefix.2 hs
  obtain ⟨t, ht⟩ := hp
  cases hr : (cs.reverse.dropWhile p).reverse with
  | nil => simp [hr] at h
  | cons d ds =>
    rw [hr] at h ht
    rw [← ht]
    simpa using h

/-- Trimming a trimmed text changes nothing. -/
theorem trimChars_trimChars (cs : List Char) : trimChars (trimChars cs) = trimChars cs := by
  have hfront : (trimChars cs).dropWhile isBlank = trimChars cs := by
    apply dropWhile_eq_self_of_head
    intro c hc
    exact head_dropWhile cs (head_reverse_dropWhile_reverse _ hc)
  have hback : (trimChars cs).reverse.dropWhile isBlank = (trimChars cs).reverse := by
    apply dropWhile_eq_self_of_head
    intro c hc
    unfold trimChars at hc
    rw [List.reverse_reverse] at hc
    exact head_dropWhile _ hc
  rw [trimChars, hfront, hback, List.reverse_reverse]

/-- Trimming a trimmed text changes nothing. -/
theorem trim_trim (s : String) : trim (trim s) = trim s := by
  simp [trim, trimChars_trimChars]

end Spillway.Text
