import CalcDoc.Text.Basic

/-!
# Splitting and lines

A text is split at every occurrence of a character and joined again by it. Lines are split by line
feeds.

- `Text.split`, `Text.join`: the parts between the occurrences of a character; there is always at
  least one.
- `Text.join_split`: no character is lost.
- `Text.lines`, `Text.unlines`: the lines of a text, and the text with the given lines.
-/

namespace CalcDoc.Text

/-- The parts of a text between the occurrences of `sep`. -/
def split (sep : Char) : Text → List Text
  | [] => [[]]
  | c :: t =>
    if c = sep then [] :: split sep t
    else
      match split sep t with
      | [] => [[c]]
      | l :: ls => (c :: l) :: ls

/-- The parts one after the other, with `sep` between neighbours. -/
def join (sep : Char) : List Text → Text
  | [] => []
  | [l] => l
  | l :: m :: ls => l ++ sep :: join sep (m :: ls)

theorem split_ne_nil (sep : Char) (t : Text) : split sep t ≠ [] := by
  cases t with
  | nil => simp [split]
  | cons c t =>
    rw [split]
    split
    · simp
    · split <;> simp

theorem join_cons_char (sep c : Char) (l : Text) (ls : List Text) :
    join sep ((c :: l) :: ls) = c :: join sep (l :: ls) := by
  cases ls <;> simp [join]

@[simp] theorem join_split (sep : Char) (t : Text) : join sep (split sep t) = t := by
  induction t with
  | nil => rfl
  | cons c t ih =>
    rw [split]
    split
    · next h =>
      cases hl : split sep t with
      | nil => exact absurd hl (split_ne_nil sep t)
      | cons l ls => rw [hl] at ih; simp [join, ih, h]
    · next h =>
      cases hl : split sep t with
      | nil => exact absurd hl (split_ne_nil sep t)
      | cons l ls => rw [hl] at ih; simp [join_cons_char, ih]

/-- The lines of a text, without the line feeds between them. -/
def lines (t : Text) : List Text :=
  split '\n' t

/-- The lines one after the other, with a line feed between neighbours. -/
def unlines (ls : List Text) : Text :=
  join '\n' ls

theorem lines_ne_nil (t : Text) : lines t ≠ [] :=
  split_ne_nil '\n' t

@[simp] theorem unlines_lines (t : Text) : unlines (lines t) = t :=
  join_split '\n' t

end CalcDoc.Text
