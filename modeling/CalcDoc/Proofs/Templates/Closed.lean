import CalcDoc.Proofs.Templates.Outline
import CalcDoc.Text.Lines

/-!
# Lines whose tags end in them

A tag may go on over the end of a line, and a reader that looks for the end of one may look at all
of the text behind it. Lines are closed if the tags in them are the same whatever lines stand below.

- `Outline.append`: outlines one after the other.
- `outline_append`: the outline of text in which no tag begins, and of what follows it.
- `Closed`: closed lines, with what remains closed when lines are put together or taken away.
- `tags_lineOutline`: the tags of lines are those of their text.
-/

namespace CalcDoc.Template

/-! ## Outlines one after the other -/

namespace Outline

/-- A text without tags. -/
def plain (t : Text) : Outline :=
  ⟨[], t, t⟩

/-- An outline with more text in front. -/
def prepend (source text : Text) (l : Outline) : Outline :=
  match l.stretches with
  | [] => ⟨[], source ++ l.lastSource, text ++ l.last⟩
  | s :: ss =>
    { l with stretches := { s with source := source ++ s.source, text := text ++ s.text } :: ss }

/-- Outlines one after the other. -/
def append (a b : Outline) : Outline :=
  let b := b.prepend a.lastSource a.last
  { b with stretches := a.stretches ++ b.stretches }

@[simp] theorem prepend_nil (l : Outline) : l.prepend [] [] = l := by
  obtain ⟨ss, lastSource, last⟩ := l
  cases ss <;> rfl

@[simp] theorem tags_prepend (source text : Text) (l : Outline) :
    (l.prepend source text).tags = l.tags := by
  obtain ⟨ss, lastSource, last⟩ := l
  cases ss <;> rfl

@[simp] theorem tags_append (a b : Outline) : (a.append b).tags = a.tags ++ b.tags := by
  have htags := tags_prepend a.lastSource a.last b
  simp only [tags] at htags
  simp [append, tags, htags]

theorem append_plain_nil (l : Outline) : l.append (plain []) = l := by
  simp [append, prepend, plain]

theorem append_assoc (a b c : Outline) : (a.append b).append c = a.append (b.append c) := by
  obtain ⟨as, aSource, aLast⟩ := a
  obtain ⟨bs, bSource, bLast⟩ := b
  obtain ⟨cs, cSource, cLast⟩ := c
  cases bs <;> cases cs <;> simp [append, prepend]

theorem prepend_cancel (source text : Text) {a b : Outline}
    (h : a.prepend source text = b.prepend source text) : a = b := by
  obtain ⟨as, aSource, aLast⟩ := a
  obtain ⟨bs, bSource, bLast⟩ := b
  cases as with
  | nil => cases bs <;> simp_all [prepend]
  | cons a as =>
    cases bs with
    | nil => simp [prepend] at h
    | cons b bs =>
      obtain ⟨aSource, aText, aInside, aTag⟩ := a
      obtain ⟨bSource, bText, bInside, bTag⟩ := b
      simp_all [prepend]

/-- An outline says what follows its beginning. -/
theorem append_cancel {a b c : Outline} (h : a.append b = a.append c) : b = c := by
  refine prepend_cancel a.lastSource a.last ?_
  simp only [append, Outline.mk.injEq] at h
  obtain ⟨hstretches, hsource, hlast⟩ := h
  have hsame := List.append_cancel_left hstretches
  rcases hb : b.prepend a.lastSource a.last with ⟨bs, bSource, bLast⟩
  rcases hc : c.prepend a.lastSource a.last with ⟨cs, cSource, cLast⟩
  rw [hb, hc] at hsame hsource hlast
  simp_all

end Outline

/-! ## Text in which no tag begins -/

/-- Whether a text begins with the opening braces of a tag. -/
def BeginsTag (t : Text) : Prop :=
  ∃ u, t = '{' :: '{' :: u

/-- What may follow a line: nothing, or the end of the line. -/
def EndsLine (t : Text) : Prop :=
  t = [] ∨ ∃ u, t = '\n' :: u

/-- A character of plain text: it opens no tag, and no backslashes from it on lead to one. -/
theorem readPlain_step {c : Char} {t : Text} (hopen : ¬ BeginsTag (c :: t))
    (hslash : c = '\\' → ¬ BeginsTag (t.dropWhile (· == '\\'))) :
    readPlain (c :: t) = (c :: (readPlain t).1, (readPlain t).2) := by
  have hbrace : ∀ u, c = '\\' → t = '{' :: '{' :: u → False := by
    rintro u hc rfl
    exact hslash hc ⟨u, rfl⟩
  by_cases htwo : ∃ u, c = '\\' ∧ t = '\\' :: u
  · obtain ⟨u, rfl, rfl⟩ := htwo
    have hdrop := hslash rfl
    rw [List.dropWhile_cons_of_pos rfl] at hdrop
    rw [readPlain]
    split
    · next rest h => exact absurd ⟨rest, h⟩ hdrop
    · rfl
  · rw [readPlain]
    · rintro u rfl rfl
      exact hopen ⟨u, rfl⟩
    · rintro u hc rfl
      exact hbrace _ hc rfl
    · exact hbrace
    · rintro u hc hu
      exact htwo ⟨u, hc, hu⟩

/-- In a text no tag begins. -/
def NoTag (t : Text) : Prop :=
  ¬ ['{', '{'] <:+: t

instance : DecidablePred NoTag :=
  fun t => inferInstanceAs (Decidable (¬ ['{', '{'] <:+: t))

theorem NoTag.of_cons {c : Char} {t : Text} (h : NoTag (c :: t)) : NoTag t :=
  fun hin => h (hin.trans (List.suffix_cons c t).isInfix)

/-- No tag begins where a text without tags ends. -/
theorem NoTag.append {t rest : Text} (h : NoTag t) (hrest : EndsLine rest) :
    ¬ BeginsTag (t ++ rest) := by
  rintro ⟨u, hu⟩
  rcases t with _ | ⟨c, _ | ⟨d, t⟩⟩
  · rcases hrest with rfl | ⟨v, rfl⟩ <;> cases hu
  · rcases hrest with rfl | ⟨v, rfl⟩ <;> cases hu
  · obtain ⟨rfl, htail⟩ := List.cons.inj hu
    obtain ⟨rfl, -⟩ := List.cons.inj htail
    exact h ⟨[], t, rfl⟩

theorem NoTag.dropWhile {t rest : Text} (h : NoTag t) (hrest : EndsLine rest) :
    ¬ BeginsTag ((t ++ rest).dropWhile (· == '\\')) := by
  induction t with
  | nil =>
    have hsame : rest.dropWhile (· == '\\') = rest := by
      rcases hrest with rfl | ⟨v, rfl⟩ <;> rfl
    rw [List.nil_append, hsame]
    exact NoTag.append h hrest
  | cons c t ih =>
    rw [List.cons_append, List.dropWhile_cons]
    split
    · exact ih h.of_cons
    · exact NoTag.append h hrest

/-- Text in which no tag begins is read as it stands. -/
theorem readPlain_append {t rest : Text} (h : NoTag t) (hrest : EndsLine rest) :
    readPlain (t ++ rest) = (t ++ (readPlain rest).1, (readPlain rest).2) := by
  induction t with
  | nil => rfl
  | cons c t ih =>
    have hopen : ¬ BeginsTag (c :: (t ++ rest)) := h.append hrest
    rw [List.cons_append, readPlain_step hopen fun _ => h.of_cons.dropWhile hrest, ih h.of_cons]
    rfl

/-- The outline of a text behind some more text that is read as it stands. -/
theorem outline_append {t rest : Text}
    (h : readPlain (t ++ rest) = (t ++ (readPlain rest).1, (readPlain rest).2)) :
    outline? (t ++ rest) = (outline? rest).map (Outline.plain t).append := by
  rcases readPlain_cases rest with ⟨plain, hplain⟩ | ⟨plain, u, hplain⟩
  · rw [hplain] at h
    rw [outline_plain h, outline_plain hplain]
    rfl
  · rw [hplain] at h
    have hbefore : Text.before (t ++ rest) ('{' :: '{' :: u) =
        t ++ Text.before rest ('{' :: '{' :: u) := by
      obtain ⟨start, rfl⟩ := suffix_of_readPlain hplain
      rw [← List.append_assoc, Text.before_append, Text.before_append]
    rw [outline_tag h, outline_tag hplain, hbefore]
    cases readTag u with
    | none => rfl
    | some r =>
      rw [Option.bind_some, Option.bind_some]
      dsimp only
      rw [Option.map_map]
      rfl

/-! ## Closed lines -/

/-- The outline of some lines, each of them behind the end of a line. -/
def lineOutline? (ls : List Text) : Option Outline :=
  outline? (ls.flatMap ('\n' :: ·))

/-- The tags of some lines are those of the outline, whatever lines stand below. -/
def Closes (ls : List Text) (a : Outline) : Prop :=
  ∀ below, lineOutline? (ls ++ below) = (lineOutline? below).map a.append

/-- Lines whose tags are the same whatever lines stand below. -/
def Closed (ls : List Text) : Prop :=
  ∃ a, Closes ls a

theorem lineOutline_nil : lineOutline? [] = some (Outline.plain []) := rfl

theorem Closes.lineOutline {ls : List Text} {a : Outline} (h : Closes ls a) :
    lineOutline? ls = some a := by
  have hnone := h []
  rw [List.append_nil, lineOutline_nil, Option.map_some, Outline.append_plain_nil] at hnone
  exact hnone

theorem Closes.append {ls ms : List Text} {a b : Outline} (hl : Closes ls a) (hm : Closes ms b) :
    Closes (ls ++ ms) (a.append b) := by
  intro below
  rw [List.append_assoc, hl, hm, Option.map_map]
  congr 1
  funext c
  exact (Outline.append_assoc a b c).symm

/-- What is left of closed lines below closed ones is closed too. -/
theorem Closes.cancel {ls ms : List Text} {a c : Outline} (hl : Closes ls a)
    (h : Closes (ls ++ ms) c) : Closed ms := by
  have hms := h.lineOutline
  rw [hl] at hms
  obtain ⟨b, -, rfl⟩ := Option.map_eq_some_iff.1 hms
  refine ⟨b, fun below => ?_⟩
  have hbelow := h below
  rw [List.append_assoc, hl] at hbelow
  -- the outlines are the same behind `a`, so they are the same
  refine Option.map_injective (fun x y hxy => Outline.append_cancel hxy) (hbelow.trans ?_)
  rw [Option.map_map]
  congr 1
  funext d
  exact Outline.append_assoc a b d

theorem endsLine_flatMap (ls : List Text) : EndsLine (ls.flatMap ('\n' :: ·)) := by
  cases ls with
  | nil => exact .inl rfl
  | cons l ls => exact .inr ⟨_, List.flatMap_cons⟩

theorem NoTag.line {l : Text} (h : NoTag l) : NoTag ('\n' :: l) := by
  intro hin
  rcases List.infix_cons_iff.1 hin with ⟨u, hu⟩ | hin
  · cases hu
  · exact h hin

/-- Lines in which no tag begins are closed. -/
theorem closes_of_noTag {ls : List Text} (h : ∀ l ∈ ls, NoTag l) :
    Closes ls (Outline.plain (ls.flatMap ('\n' :: ·))) := by
  induction ls with
  | nil =>
    intro below
    cases h : lineOutline? below <;> simp [Outline.append, Outline.plain, h]
  | cons l ls ih =>
    have hline : Closes [l] (Outline.plain ('\n' :: l)) := by
      intro below
      have hl := (h l List.mem_cons_self).line
      exact outline_append (readPlain_append hl (endsLine_flatMap below))
    have hrest := ih fun m hm => h m (List.mem_cons_of_mem _ hm)
    exact hline.append hrest

/-! ## Lines and their text -/

/-- A line feed in front of a text changes none of its tags. -/
theorem outline_line (t : Text) :
    outline? ('\n' :: t) = (outline? t).map (Outline.plain ['\n']).append :=
  outline_append (t := ['\n'])
    (readPlain_step (by rintro ⟨u, hu⟩; cases hu) fun h => absurd h (by decide))

theorem flatMap_line_eq {ls : List Text} (h : ls ≠ []) :
    ls.flatMap ('\n' :: ·) = '\n' :: Text.unlines ls := by
  induction ls with
  | nil => exact absurd rfl h
  | cons l ls ih =>
    cases ls with
    | nil => simp [Text.unlines, Text.join]
    | cons m ls =>
      rw [List.flatMap_cons, ih (List.cons_ne_nil m ls)]
      rfl

/-- The outline of some lines, by that of their text. -/
theorem lineOutline_eq {ls : List Text} (h : ls ≠ []) :
    lineOutline? ls = (outline? (Text.unlines ls)).map (Outline.plain ['\n']).append := by
  rw [lineOutline?, flatMap_line_eq h, outline_line]

/-- The tags of lines are those of their text. -/
theorem tags_lineOutline (ls : List Text) :
    (lineOutline? ls).map Outline.tags = (outline? (Text.unlines ls)).map Outline.tags := by
  by_cases h : ls = []
  · rw [h]
    rfl
  · rw [lineOutline_eq h, Option.map_map]
    congr 1
    funext l
    exact Outline.tags_append (Outline.plain ['\n']) l

end CalcDoc.Template
