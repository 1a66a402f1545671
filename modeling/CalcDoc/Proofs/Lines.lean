import CalcDoc.Text.Lines

/-!
# Texts and their lines

- `Text.split_append`, `Text.split_of_notMem`: a text is split at each separator and nowhere else.
- `Text.lines_unlines`: lines that are put together are the lines of what they give.
-/

namespace CalcDoc

namespace Text

theorem split_append (sep : Char) (p q : Text) :
    split sep (p ++ sep :: q) = split sep p ++ split sep q := by
  induction p with
  | nil => simp [split]
  | cons c p ih =>
    rw [List.cons_append, split, split]
    split
    · rw [ih]; rfl
    · rw [ih]
      cases hp : split sep p with
      | nil => exact absurd hp (split_ne_nil sep p)
      | cons l ls => rfl

theorem split_of_notMem {sep : Char} {l : Text} (h : sep ∉ l) : split sep l = [l] := by
  induction l with
  | nil => rfl
  | cons c l ih =>
    obtain ⟨hc, hl⟩ := List.ne_and_not_mem_of_not_mem_cons h
    rw [split, if_neg hc.symm, ih hl]

/-- The first line of a text. -/
theorem exists_lines_eq_cons (t : Text) : ∃ ls, lines t = t.takeWhile (· ≠ '\n') :: ls := by
  induction t with
  | nil => exact ⟨[], rfl⟩
  | cons c t ih =>
    obtain ⟨ls, hls⟩ := ih
    by_cases hc : c = '\n'
    · rw [lines, split, if_pos hc, List.takeWhile_cons_of_neg (by simp [hc])]
      exact ⟨_, rfl⟩
    · rw [lines, split, if_neg hc, ← lines, hls, List.takeWhile_cons_of_pos (by simp [hc])]
      exact ⟨ls, rfl⟩

theorem notMem_of_mem_split {sep : Char} {t l : Text} (h : l ∈ split sep t) : sep ∉ l := by
  induction t generalizing l with
  | nil =>
    obtain rfl := List.mem_singleton.1 h
    exact List.not_mem_nil
  | cons c t ih =>
    rw [split] at h
    split at h
    · rcases List.mem_cons.1 h with rfl | h
      · exact List.not_mem_nil
      · exact ih h
    · next hc =>
      cases ht : split sep t with
      | nil => exact absurd ht (split_ne_nil sep t)
      | cons m ms =>
        rw [ht] at h ih
        rcases List.mem_cons.1 h with rfl | h
        · exact List.not_mem_cons_of_ne_of_not_mem (Ne.symm hc) (ih List.mem_cons_self)
        · exact ih (List.mem_cons_of_mem _ h)

/-- The lines of a text that is put together from lines. -/
theorem lines_unlines {ls : List Text} (hne : ls ≠ []) (h : ∀ l ∈ ls, '\n' ∉ l) :
    lines (unlines ls) = ls := by
  induction ls with
  | nil => exact absurd rfl hne
  | cons l ls ih =>
    have hl : lines l = [l] := split_of_notMem (h l List.mem_cons_self)
    cases ls with
    | nil => exact hl
    | cons m ls =>
      have hrest := ih (List.cons_ne_nil m ls) fun k hk => h k (List.mem_cons_of_mem _ hk)
      show split '\n' (l ++ '\n' :: unlines (m :: ls)) = _
      rw [split_append, ← lines, ← lines, hl, hrest]
      rfl

end Text

end CalcDoc
