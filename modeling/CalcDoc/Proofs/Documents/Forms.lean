import CalcDoc.Proofs.Documents.References
import CalcDoc.Proofs.Lines
import CalcDoc.Proofs.Templates.Outline
import Mathlib.Algebra.Ring.Nat

/-!
# References by the look of the text

A document counts its references line by line, by the look of what follows two braces. Here the
same count is made tag by tag, as the template is read.

- `formCount`: the references of a text by its look.
- `formCount_append_brace`: they are counted apart before and behind a closing brace.
- `Outline.forms`, `formCount_outline`: they are counted apart for each text between tags and for
  each tag.
-/

namespace CalcDoc

/-! ## Lines -/

/-- The references of a text by its look, line by line. -/
def formCount (t : Text) : Nat :=
  referencesOn ['_'] (Text.lines t)

/-- Whether the text up to the end of the line goes on as a reference. -/
def lineRefers (t : Text) : Bool :=
  isReference ['_'] (t.takeWhile (· ≠ '\n'))

theorem formCount_tag (t : Text) :
    formCount ('{' :: '{' :: t) = (if lineRefers t then 1 else 0) + formCount t := by
  obtain ⟨ls, hls⟩ := Text.exists_lines_eq_cons t
  have hlines : Text.lines ('{' :: '{' :: t) =
      ('{' :: '{' :: t.takeWhile (· ≠ '\n')) :: ls := by
    rw [Text.lines] at hls
    simp [Text.lines, Text.split, hls]
  rw [formCount, formCount, hlines, hls, referencesOn_cons, referencesOn_cons, countReferences,
    Nat.add_assoc]
  rfl

theorem formCount_cons {c : Char} {t : Text} (h : ∀ u, c = '{' → t ≠ '{' :: u) :
    formCount (c :: t) = formCount t := by
  obtain ⟨ls, hls⟩ := Text.exists_lines_eq_cons t
  by_cases hc : c = '\n'
  · have hlines : Text.lines (c :: t) = [] :: Text.lines t := by
      rw [Text.lines, Text.split, if_pos hc]
      rfl
    rw [formCount, hlines, referencesOn_cons]
    exact Nat.zero_add _
  · have hlines : Text.lines (c :: t) = (c :: t.takeWhile (· ≠ '\n')) :: ls := by
      rw [Text.lines] at hls
      rw [Text.lines, Text.split, if_neg hc, hls]
    rw [formCount, formCount, hlines, hls, referencesOn_cons, referencesOn_cons, countReferences]
    rintro u rfl hu
    cases t with
    | nil => cases hu
    | cons d t =>
      by_cases hd : d = '{'
      · exact h t rfl (by rw [hd])
      · by_cases hd' : d = '\n'
        · rw [List.takeWhile_cons_of_neg (by simp [hd'])] at hu
          cases hu
        · rw [List.takeWhile_cons_of_pos (by simp [hd'])] at hu
          exact hd (List.cons.inj hu).1

theorem formCount_cons_of_ne {c : Char} (hc : c ≠ '{') (t : Text) :
    formCount (c :: t) = formCount t :=
  formCount_cons fun _ h => absurd h hc

theorem formCount_append_of_notMem {p : Text} (hp : '{' ∉ p) (q : Text) :
    formCount (p ++ q) = formCount q := by
  induction p with
  | nil => rfl
  | cons c p ih =>
    obtain ⟨hc, hp⟩ := List.ne_and_not_mem_of_not_mem_cons hp
    rw [List.cons_append, formCount_cons_of_ne hc.symm]
    exact ih hp

/-! ## Where the look of a reference ends -/

/-- Whether a text begins with the name of the helper and a blank. -/
def followsName (t : Text) : Bool :=
  match Text.stripStart? ['_'] t with
  | some (c :: _) => isBlank c
  | _ => false

theorem isReference_eq (t : Text) : isReference ['_'] t =
    followsName (Text.trimStart (Text.dropOne '~' (Text.dropOne '{' t))) := rfl

theorem followsName_append {c : Char} (hname : c ≠ '_') (hblank : isBlank c = false)
    (p q : Text) : followsName (p ++ c :: q) = followsName p := by
  cases p with
  | nil =>
    rw [List.nil_append, followsName, Text.stripStart?, if_neg hname.symm]
    rfl
  | cons d p =>
    by_cases hd : '_' = d
    · subst hd
      cases p with
      | nil => exact hblank
      | cons e p => rfl
    · have hother (t : Text) : followsName (d :: t) = false := by
        rw [followsName, Text.stripStart?, if_neg hd]
      rw [List.cons_append, hother, hother]

/-- A character that belongs to no reference ends the look of one. -/
theorem isReference_append {c : Char} {p : Text} (hbrace : p = [] → c ≠ '{') (hmark : c ≠ '~')
    (hname : c ≠ '_') (hblank : isBlank c = false) (q : Text) :
    isReference ['_'] (p ++ c :: q) = isReference ['_'] p := by
  have hopen : Text.dropOne '{' (p ++ c :: q) = Text.dropOne '{' p ++ c :: q := by
    cases p with
    | nil => exact if_neg (hbrace rfl)
    | cons d p =>
      rw [List.cons_append, Text.dropOne, Text.dropOne]
      split <;> rfl
  have htilde (p : Text) : Text.dropOne '~' (p ++ c :: q) = Text.dropOne '~' p ++ c :: q := by
    cases p with
    | nil => exact if_neg hmark
    | cons d p =>
      rw [List.cons_append, Text.dropOne, Text.dropOne]
      split <;> rfl
  have htrim (p : Text) : Text.trimStart (p ++ c :: q) = Text.trimStart p ++ c :: q := by
    induction p with
    | nil => exact List.dropWhile_cons_of_neg (by simp [hblank])
    | cons d p ih =>
      rw [Text.trimStart, Text.trimStart, List.cons_append, List.dropWhile_cons,
        List.dropWhile_cons]
      split
      · exact ih
      · rfl
  rw [isReference_eq, isReference_eq, hopen, htilde, htrim, followsName_append hname hblank]

/-- The same for the opening braces of a tag. -/
theorem isReference_append_tag (p q : Text) :
    isReference ['_'] (p ++ '{' :: '{' :: q) = isReference ['_'] p := by
  cases p with
  | nil => rfl
  | cons d p => exact isReference_append (by simp) (by decide) (by decide) (by decide) _

/-- What ends the look of a reference on its line, ends it in a text. -/
theorem lineRefers_append {p q : Text}
    (h : isReference ['_'] (p ++ q.takeWhile (· ≠ '\n')) = isReference ['_'] p) :
    lineRefers (p ++ q) = lineRefers p := by
  rw [lineRefers, lineRefers, List.takeWhile_append]
  split
  · next hp =>
    rw [h, (List.takeWhile_prefix _).eq_of_length hp]
  · rfl

/-- References are counted apart before and behind a closing brace. -/
theorem formCount_append_brace (p q : Text) :
    formCount (p ++ '}' :: q) = formCount p + formCount q := by
  have hbrace : formCount ('}' :: q) = formCount q := formCount_cons_of_ne (by decide) q
  induction p using countReferences.induct with
  | case1 t ih =>
    have hrefers : lineRefers (t ++ '}' :: q) = lineRefers t :=
      lineRefers_append (isReference_append (by simp) (by decide) (by decide) (by decide) _)
    rw [List.cons_append, List.cons_append, formCount_tag, formCount_tag, ih, hrefers,
      Nat.add_assoc]
  | case2 c t hne ih =>
    rw [List.cons_append, formCount_cons, formCount_cons, ih]
    · rintro u hc rfl
      exact hne u hc rfl
    · rintro u hc hu
      cases t with
      | nil => cases hu
      | cons d t =>
        obtain ⟨rfl, -⟩ := List.cons.inj hu
        exact hne t hc rfl
  | case3 => exact hbrace.trans (Nat.zero_add _).symm

/-! ## The references of an outline -/

open Template (readPlain outline? Stretch Outline)

/-- The look of a reference does not go on into the next tag. -/
theorem lineRefers_append_rest (p : Text) {rest : Text}
    (hrest : rest = [] ∨ ∃ u, rest = '{' :: '{' :: u) : lineRefers (p ++ rest) = lineRefers p := by
  rcases hrest with rfl | ⟨u, rfl⟩
  · rw [List.append_nil]
  · exact lineRefers_append (isReference_append_tag p (u.takeWhile (· ≠ '\n')))

/-- Braces behind a backslash count as references by the look of what follows them. -/
theorem formCount_escaped (t : Text) :
    formCount ('\\' :: '{' :: '{' :: t) = (if lineRefers t then 1 else 0) + formCount t := by
  rw [formCount_cons_of_ne (by decide), formCount_tag]

/-- The references in plain text, and those from the next tag on. -/
theorem formCount_readPlain (t : Text) :
    ∃ p, t = p ++ (readPlain t).2 ∧ formCount t = formCount p + formCount (readPlain t).2 := by
  have hrest := (Template.readPlain_snd t).2
  fun_induction readPlain t with
  | case1 => exact ⟨[], rfl, rfl⟩
  | case2 t => exact ⟨[], rfl, (Nat.zero_add _).symm⟩
  | case3 t u rest hread ih =>
    rw [hread] at ih
    obtain ⟨p, rfl, hcount⟩ := ih hrest
    have hrefers : lineRefers (p ++ rest) = lineRefers p := lineRefers_append_rest p hrest
    have hbraces (t : Text) : lineRefers ('{' :: '{' :: t) = false := rfl
    refine ⟨'\\' :: '{' :: '{' :: '{' :: '{' :: p, rfl, ?_⟩
    rw [formCount_escaped, formCount_escaped, formCount_tag, formCount_tag, hbraces, hbraces,
      hrefers, hcount, Nat.add_assoc, Nat.add_assoc]
  | case4 t _ u rest hread ih =>
    rw [hread] at ih
    obtain ⟨p, rfl, hcount⟩ := ih hrest
    have hrefers : lineRefers (p ++ rest) = lineRefers p := lineRefers_append_rest p hrest
    refine ⟨'\\' :: '{' :: '{' :: p, rfl, ?_⟩
    rw [formCount_escaped, formCount_escaped, hrefers, hcount, Nat.add_assoc]
  | case5 t rest hdrop =>
    have ht : '\\' :: '\\' :: t =
        ('\\' :: '\\' :: t.takeWhile (· == '\\')) ++ '{' :: '{' :: rest := by
      rw [← hdrop, List.cons_append, List.cons_append, List.takeWhile_append_dropWhile]
    have hnone : '{' ∉ '\\' :: '\\' :: t.takeWhile (· == '\\') := by
      simp only [List.mem_cons, not_or]
      refine ⟨by decide, by decide, fun h => ?_⟩
      have hslash := List.all_eq_true.1 List.all_takeWhile _ h
      exact absurd hslash (by decide)
    have hzero := formCount_append_of_notMem hnone []
    rw [List.append_nil] at hzero
    refine ⟨_, ht, ?_⟩
    rw [ht, formCount_append_of_notMem hnone, hzero]
    exact (Nat.zero_add _).symm
  | case6 t u rest hread _ ih =>
    rw [hread] at ih
    obtain ⟨p, hp, hcount⟩ := ih hrest
    refine ⟨'\\' :: p, by rw [hp]; rfl, ?_⟩
    rw [formCount_cons_of_ne (by decide) ('\\' :: t), formCount_cons_of_ne (by decide) p]
    exact hcount
  | case7 c t hbrace _ _ _ u rest hread ih =>
    rw [hread] at ih
    obtain ⟨p, rfl, hcount⟩ := ih hrest
    refine ⟨c :: p, rfl, ?_⟩
    rw [formCount_cons, formCount_cons]
    · exact hcount
    · rintro v hc rfl
      exact hbrace _ hc rfl
    · rintro v hc hv
      exact hbrace _ hc hv

/-- The references by the look of a stretch, in the text and in the tag. -/
def Template.Stretch.forms (s : Stretch) : Nat :=
  formCount s.source + formCount ('{' :: '{' :: s.inside)

/-- The references by the look of an outline. -/
def Template.Outline.forms (l : Outline) : Nat :=
  (l.stretches.map Stretch.forms).sum + formCount l.lastSource

/-- No reference by its look lies in two stretches. -/
theorem formCount_outline {t : Text} {l : Outline} (h : outline? t = some l) :
    formCount t = l.forms := by
  refine Template.outline_induction (motive := fun t l => formCount t = l.forms) ?_ ?_ h
  · intro t plain _
    exact (Nat.zero_add _).symm
  · intro t plain u m rest l ht hu _ ih
    obtain ⟨p, hp, hcount⟩ := formCount_readPlain t
    rw [ht] at hp hcount
    obtain ⟨start, rfl⟩ := Template.behindBrace_of_readTag hu
    have hsource : Text.before t ('{' :: '{' :: (start ++ '}' :: rest)) = p := by
      rw [hp, Text.before_append]
    have hinside : Text.before (start ++ '}' :: rest) rest = start ++ ['}'] := by
      rw [List.append_cons, Text.before_append]
    have hbrace (q : Text) : formCount ('{' :: '{' :: (start ++ '}' :: q)) =
        formCount ('{' :: '{' :: start) + formCount q :=
      formCount_append_brace ('{' :: '{' :: start) q
    rw [hcount, hbrace, ih, Outline.forms, Outline.forms, Outline.push, List.map_cons,
      List.sum_cons, Stretch.forms, hsource, hinside, hbrace, show formCount [] = 0 from rfl]
    simp only [Nat.add_assoc, Nat.zero_add]

end CalcDoc
