/-!
# Splitting

A text is cut at every occurrence of a mark. Main statements: the pieces, joined by the mark, are
the text again, and no piece holds the mark.
-/

namespace Spillway.Text

/-- The pieces of a text between marks; there is at least one. -/
def splitAt (mark : Char) (text : List Char) : List (List Char) :=
  text.foldr
    (fun c pieces =>
      if c = mark then [] :: pieces
      else match pieces with
        | piece :: others => (c :: piece) :: others
        | [] => [[c]])
    [[]]

/-- The pieces joined by the mark. -/
def joinWith (mark : Char) : List (List Char) → List Char
  | [] => []
  | [piece] => piece
  | piece :: pieces => piece ++ mark :: joinWith mark pieces

theorem splitAt_cons (mark c : Char) (text : List Char) :
    splitAt mark (c :: text) =
      if c = mark then [] :: splitAt mark text
      else match splitAt mark text with
        | piece :: others => (c :: piece) :: others
        | [] => [[c]] := rfl

theorem splitAt_ne_nil (mark : Char) (text : List Char) : splitAt mark text ≠ [] := by
  cases text with
  | nil => simp [splitAt]
  | cons c text =>
    rw [splitAt_cons]
    split
    · simp
    · split <;> simp

/-- The pieces of a text make the text again. -/
theorem joinWith_splitAt (mark : Char) (text : List Char) :
    joinWith mark (splitAt mark text) = text := by
  induction text with
  | nil => rfl
  | cons c text ih =>
    rw [splitAt_cons]
    have hne := splitAt_ne_nil mark text
    cases hs : splitAt mark text with
    | nil => exact absurd hs hne
    | cons piece others =>
      rw [hs] at ih
      split
      · next hc => simp [joinWith, ih, hc]
      · cases others with
        | nil => simpa [joinWith] using ih
        | cons other others => simpa [joinWith] using ih

/-- No piece holds the mark. -/
theorem not_mem_of_mem_splitAt {mark : Char} {text piece : List Char}
    (h : piece ∈ splitAt mark text) : mark ∉ piece := by
  induction text generalizing piece with
  | nil =>
    simp only [splitAt, List.foldr_nil, List.mem_singleton] at h
    simp [h]
  | cons c text ih =>
    rw [splitAt_cons] at h
    split at h
    · rcases List.mem_cons.1 h with rfl | h
      · simp
      · exact ih h
    · next hc =>
      cases hs : splitAt mark text with
      | nil => exact absurd hs (splitAt_ne_nil mark text)
      | cons first others =>
        rw [hs] at h
        rcases List.mem_cons.1 h with rfl | h
        · have := ih (hs ▸ List.mem_cons_self)
          simp [this, Ne.symm hc]
        · exact ih (hs ▸ List.mem_cons_of_mem _ h)

end Spillway.Text
