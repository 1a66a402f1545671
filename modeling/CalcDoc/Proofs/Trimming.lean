import CalcDoc.Text.Basic

/-!
# Blanks at the ends of texts

- `Text.exists_trim`, `Text.trim_first`: what trimming leaves of a text.
- `Trims`: a text and what is left of it without some blanks at its ends.
- `Trims.trim_eq`: what is left without blanks in it is what trimming leaves.
- `Trims.infix_trim`: what stands in a text still stands in it then, but for its own blanks.
-/

namespace CalcDoc

namespace Text

theorem exists_dropEndWhile (p : Char → Bool) (t : Text) :
    ∃ y, t = dropEndWhile p t ++ y ∧ ∀ c ∈ y, p c = true := by
  induction t with
  | nil => exact ⟨[], rfl, by simp⟩
  | cons c t ih =>
    obtain ⟨y, hy, hall⟩ := ih
    rw [dropEndWhile]
    split
    · next hnone =>
      rw [hnone, List.nil_append] at hy
      split
      · next hc =>
        refine ⟨c :: t, rfl, ?_⟩
        rw [hy]
        exact List.forall_mem_cons.2 ⟨hc, hall⟩
      · exact ⟨y, by rw [hy]; rfl, hall⟩
    · next d r hsome =>
      rw [hsome] at hy
      exact ⟨y, by rw [hy]; rfl, hall⟩

/-- The last character that is kept is not one of the class. -/
theorem dropEndWhile_last {p : Char → Bool} {t s : Text} {d : Char}
    (h : dropEndWhile p t = s ++ [d]) : p d = false := by
  induction t generalizing s with
  | nil => cases s <;> cases h
  | cons c t ih =>
    rw [dropEndWhile] at h
    split at h
    · split at h
      · cases s <;> cases h
      · next hc =>
        cases s with
        | nil =>
          obtain rfl := (List.cons.inj h).1
          exact Bool.eq_false_iff.2 hc
        | cons e s => cases s <;> cases h
    · next e r hsome =>
      cases s with
      | nil => cases h
      | cons f s => exact ih (hsome.trans (List.cons.inj h).2)

theorem dropEndWhile_append_of_all {p : Char → Bool} (t : Text) {y : Text}
    (hy : ∀ c ∈ y, p c = true) : dropEndWhile p (t ++ y) = dropEndWhile p t := by
  induction t with
  | nil =>
    induction y with
    | nil => rfl
    | cons c y ih =>
      obtain ⟨hc, hrest⟩ := List.forall_mem_cons.1 hy
      have hnone : dropEndWhile p y = [] := ih hrest
      show dropEndWhile p (c :: y) = []
      rw [dropEndWhile, hnone]
      exact if_pos hc
  | cons c t ih => rw [List.cons_append, dropEndWhile, dropEndWhile, ih]

theorem dropEndWhile_of_none {p : Char → Bool} {t : Text} (h : ∀ c ∈ t, p c = false) :
    dropEndWhile p t = t := by
  induction t with
  | nil => rfl
  | cons c t ih =>
    obtain ⟨hc, hrest⟩ := List.forall_mem_cons.1 h
    rw [dropEndWhile, ih hrest]
    cases t with
    | nil => exact if_neg (Bool.eq_false_iff.1 hc)
    | cons d t => rfl

/-- A text as what is left of it when it is trimmed, and the rest around. -/
theorem exists_trim (t : Text) : ∃ x y, t = x ++ (trim t ++ y) := by
  obtain ⟨y, hy, -⟩ := exists_dropEndWhile isBlank (trimStart t)
  refine ⟨t.takeWhile isBlank, y, ?_⟩
  rw [trim, trimEnd, ← hy, trimStart, List.takeWhile_append_dropWhile]

theorem trim_first {t u : Text} {c : Char} (h : trim t = c :: u) : isBlank c = false := by
  obtain ⟨y, hy, -⟩ := exists_dropEndWhile isBlank (trimStart t)
  rw [← trimEnd, ← trim, h, trimStart] at hy
  have hhead := List.head?_dropWhile_not isBlank t
  rw [hy] at hhead
  simpa using hhead

end Text

/-- The second text is the first one without some blanks at its ends. -/
def Trims (t u : Text) : Prop :=
  ∃ x y, t = x ++ (u ++ y) ∧ (∀ c ∈ x, isBlank c = true) ∧ ∀ c ∈ y, isBlank c = true

namespace Trims

theorem refl (t : Text) : Trims t t :=
  ⟨[], [], (List.append_nil t).symm, by simp, by simp⟩

theorem trans {t u v : Text} (h : Trims t u) (h' : Trims u v) : Trims t v := by
  obtain ⟨x, y, rfl, hx, hy⟩ := h
  obtain ⟨x', y', rfl, hx', hy'⟩ := h'
  refine ⟨x ++ x', y' ++ y, by simp, ?_, ?_⟩
  · exact fun c hc => (List.mem_append.1 hc).elim (hx c) (hx' c)
  · exact fun c hc => (List.mem_append.1 hc).elim (hy' c) (hy c)

theorem dropWhile (p : Char → Bool) (hp : ∀ c, p c = true → isBlank c = true) (t : Text) :
    Trims t (t.dropWhile p) := by
  refine ⟨t.takeWhile p, [], ?_, fun c hc => hp c ?_, by simp⟩
  · rw [List.append_nil, List.takeWhile_append_dropWhile]
  · exact List.all_eq_true.1 List.all_takeWhile c hc

theorem dropEndWhile (p : Char → Bool) (hp : ∀ c, p c = true → isBlank c = true) (t : Text) :
    Trims t (Text.dropEndWhile p t) := by
  obtain ⟨y, hy, hall⟩ := Text.exists_dropEndWhile p t
  exact ⟨[], y, hy, by simp, fun c hc => hp c (hall c hc)⟩

theorem trim (t : Text) : Trims t (Text.trim t) :=
  (dropWhile isBlank (fun _ => id) t).trans (dropEndWhile isBlank (fun _ => id) _)

/-- What is left without blanks in it is what trimming leaves. -/
theorem trim_eq {t u : Text} (h : Trims t u) (hu : ∀ c ∈ u, isBlank c = false) :
    Text.trim t = u := by
  obtain ⟨x, y, rfl, hx, hy⟩ := h
  rw [Text.trim, Text.trimStart, Text.trimEnd, List.dropWhile_append_of_pos hx]
  cases u with
  | nil =>
    rw [List.nil_append, ← List.append_nil y, List.dropWhile_append_of_pos hy]
    rfl
  | cons c u =>
    have hc : ¬isBlank c = true := Bool.eq_false_iff.1 (hu c List.mem_cons_self)
    rw [List.cons_append, List.dropWhile_cons_of_neg hc, ← List.cons_append,
      Text.dropEndWhile_append_of_all _ hy, Text.dropEndWhile_of_none hu]

/-- A character that is no blank is not among the blanks in front. -/
theorem exists_of_blanks {x z w v : Text} {c : Char} (hx : ∀ c ∈ x, isBlank c = true)
    (hc : isBlank c = false) (h : x ++ z = w ++ c :: v) : ∃ w', z = w' ++ c :: v := by
  rcases List.append_eq_append_iff.1 h with ⟨a, rfl, ha⟩ | ⟨b, rfl, hb⟩
  · exact ⟨a, ha⟩
  · cases b with
    | nil => exact ⟨[], hb.symm⟩
    | cons d b =>
      obtain ⟨rfl, -⟩ := List.cons.inj hb
      rw [hx c (by simp)] at hc
      cases hc

/-- The same for the blanks behind. -/
theorem exists_of_blanks_end {z y w v : Text} {c : Char} (hy : ∀ c ∈ y, isBlank c = true)
    (hc : isBlank c = false) (h : z ++ y = w ++ c :: v) : ∃ v', z = w ++ c :: v' := by
  rcases List.append_eq_append_iff.1 h with ⟨a, rfl, rfl⟩ | ⟨b, rfl, hb⟩
  · rw [hy c (by simp)] at hc
    cases hc
  · cases b with
    | nil =>
      rw [hy c (by rw [← List.nil_append y, ← hb]; simp)] at hc
      cases hc
    | cons d b =>
      obtain ⟨rfl, -⟩ := List.cons.inj hb
      exact ⟨b, rfl⟩

/-- What stands in a text still stands in what is left of it, but for its own blanks. -/
theorem infix_trim {t u x : Text} (h : Trims t u) (hx : x <:+: t) : Text.trim x <:+: u := by
  obtain ⟨y, z, rfl, hy, hz⟩ := h
  obtain ⟨p, q, hpq⟩ := hx
  obtain ⟨a, b, hab⟩ := Text.exists_trim x
  cases htrim : Text.trim x with
  | nil => exact ⟨[], u, rfl⟩
  | cons c core =>
    have hfirst := Text.trim_first htrim
    have hlast := List.dropLast_concat_getLast (List.cons_ne_nil c core)
    generalize (c :: core).dropLast = s at hlast
    generalize (c :: core).getLast (List.cons_ne_nil c core) = d at hlast
    have hd : isBlank d = false := Text.dropEndWhile_last (htrim.trans hlast.symm)
    rw [htrim] at hab
    obtain ⟨w, hw⟩ := exists_of_blanks (w := p ++ a) (v := core ++ (b ++ q)) hy hfirst (by
      rw [← hpq, hab]
      simp)
    obtain ⟨v, hv⟩ := exists_of_blanks_end (w := w ++ s) (v := b ++ q) hz hd (by
      rw [hw, ← List.cons_append, ← hlast]
      simp)
    refine ⟨w, v, ?_⟩
    rw [hv, ← hlast]
    simp

end Trims

end CalcDoc
