/-!
# Pieces of a text

A text cut at each occurrence of a mark.

* `Text.pieces`: the pieces; `Text.intercalate_pieces` says that joining them gives the text back.
-/

namespace SourceEvolution

namespace Text

/-- The pieces of a text between the occurrences of a mark. There is always at least one. -/
def pieces (mark : Char) : List Char → List (List Char)
  | [] => [[]]
  | c :: cs =>
    if c = mark then [] :: pieces mark cs
    else match pieces mark cs with
      | [] => [[c]]
      | piece :: rest => (c :: piece) :: rest

/-- A text has at least one piece. -/
theorem pieces_ne_nil (mark : Char) (cs : List Char) : pieces mark cs ≠ [] := by
  cases cs with
  | nil => simp [pieces]
  | cons c cs =>
    rw [pieces]
    split
    · simp
    · split <;> simp

/-- The pieces of a text, with the mark between them, are the text. -/
theorem intercalate_pieces (mark : Char) (cs : List Char) :
    List.intercalate [mark] (pieces mark cs) = cs := by
  induction cs with
  | nil => rfl
  | cons c cs ih =>
    rw [pieces]
    split
    · next h =>
      cases hp : pieces mark cs with
      | nil => exact absurd hp (pieces_ne_nil mark cs)
      | cons piece rest =>
        rw [hp] at ih
        simp [List.intercalate, List.intersperse, h, ← ih]
    · split
      · next h => exact absurd h (pieces_ne_nil mark cs)
      · next piece rest hp =>
        rw [hp] at ih
        cases rest <;> simp_all [List.intercalate, List.intersperse]

end Text

end SourceEvolution
