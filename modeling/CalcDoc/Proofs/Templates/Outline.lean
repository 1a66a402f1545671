import CalcDoc.Proofs.Templates.Progress
import CalcDoc.Template.Nesting

/-!
# The outline of a template

The tags of a text with the text around them, as they are written and as they are read. The pieces
of a template come from its outline, and its outline makes up its text.

- `Stretch`, `Outline`: a tag with the text before it, and all tags of a text.
- `outline?`: the outline of a text, if its tags can be read.
- `outline_tag`: the outline of a text by its first tag.
- `written_outline`: an outline loses nothing of its text.
- `readPieces_outline`: the pieces of a text.
-/

namespace CalcDoc.Template

/-- A tag and the text before it. -/
structure Stretch where
  /-- The text as it is written. -/
  source : Text
  /-- The text as it is read, without the backslashes that make braces text. -/
  text : Text
  /-- The tag as it is written, without its two opening braces. -/
  inside : Text
  tag : MarkedTag

/-- What a stretch is written as. -/
def Stretch.written (s : Stretch) : Text :=
  s.source ++ '{' :: '{' :: s.inside

/-- The tags of a text, and the text behind the last one. -/
structure Outline where
  stretches : List Stretch
  lastSource : Text
  last : Text

namespace Outline

/-- What an outline is written as. -/
def written (l : Outline) : Text :=
  l.stretches.flatMap Stretch.written ++ l.lastSource

/-- The tags of an outline. -/
def tags (l : Outline) : List MarkedTag :=
  l.stretches.map Stretch.tag

/-- The outline with one more stretch in front. -/
def push (s : Stretch) (l : Outline) : Outline :=
  { l with stretches := s :: l.stretches }

@[simp] theorem written_push (s : Stretch) (l : Outline) :
    (l.push s).written = s.written ++ l.written := by
  simp [written, push]

end Outline

/-- The outline of a text; at most `count` tags. -/
def readOutline : (count : Nat) → Text → Option Outline
  | 0, _ => none
  | count + 1, t =>
    match readPlain t with
    | (plain, '{' :: '{' :: u) =>
      match readTag u with
      | none => none
      | some (m, rest) =>
        (readOutline count rest).map
          (Outline.push ⟨Text.before t ('{' :: '{' :: u), plain, Text.before u rest, m⟩)
    | (plain, _) => some ⟨[], t, plain⟩

/-- The outline of a text, if its tags can be read. -/
def outline? (t : Text) : Option Outline :=
  readOutline (t.length + 1) t

/-! ## Plain text -/

/-- Plain text goes on to the end or to a tag. -/
theorem readPlain_snd (t : Text) :
    (readPlain t).2 <:+ t ∧ ((readPlain t).2 = [] ∨ ∃ u, (readPlain t).2 = '{' :: '{' :: u) := by
  fun_induction readPlain t with
  | case1 => exact ⟨List.suffix_rfl, .inl rfl⟩
  | case2 t => exact ⟨List.suffix_rfl, .inr ⟨t, rfl⟩⟩
  | case3 t u rest hread ih =>
    rw [hread] at ih
    exact ⟨ih.1.trans (List.suffix_append ['\\', '{', '{', '{', '{'] t), ih.2⟩
  | case4 t _ u rest hread ih =>
    rw [hread] at ih
    exact ⟨ih.1.trans (List.suffix_append ['\\', '{', '{'] t), ih.2⟩
  | case5 t rest hdrop =>
    refine ⟨?_, .inr ⟨rest, rfl⟩⟩
    exact (hdrop ▸ List.dropWhile_suffix _).trans (List.suffix_append ['\\', '\\'] t)
  | case6 t u rest hread _ ih =>
    rw [hread] at ih
    exact ⟨ih.1.trans (List.suffix_cons _ _), ih.2⟩
  | case7 c t _ _ _ _ u rest hread ih =>
    rw [hread] at ih
    exact ⟨ih.1.trans (List.suffix_cons _ _), ih.2⟩

/-- Behind plain text there is nothing left, or a tag. -/
theorem readPlain_cases (t : Text) :
    (∃ plain, readPlain t = (plain, [])) ∨ ∃ plain u, readPlain t = (plain, '{' :: '{' :: u) := by
  rcases (readPlain_snd t).2 with hend | ⟨u, htag⟩
  · exact .inl ⟨_, Prod.ext rfl hend⟩
  · exact .inr ⟨_, u, Prod.ext rfl htag⟩

theorem suffix_of_readPlain {t plain rest : Text} (h : readPlain t = (plain, rest)) :
    rest <:+ t := by
  have hsuffix := (readPlain_snd t).1
  rw [h] at hsuffix
  exact hsuffix

/-- What is left behind a tag is shorter than the text that the tag stands in. -/
theorem length_lt_of_tag {t plain u rest : Text} {m : MarkedTag}
    (ht : readPlain t = (plain, '{' :: '{' :: u)) (hu : readTag u = some (m, rest)) :
    rest.length < t.length := by
  have htag := (suffix_of_readPlain ht).length_le
  have hrest := (behindBrace_of_readTag hu).length_le
  rw [List.length_cons, List.length_cons] at htag
  rw [List.length_cons] at hrest
  omega

/-! ## Reading outlines -/

theorem readOutline_plain {t plain : Text} (count : Nat) (h : readPlain t = (plain, [])) :
    readOutline (count + 1) t = some ⟨[], t, plain⟩ := by
  rw [readOutline, h]

theorem readOutline_tag {t plain u : Text} (count : Nat)
    (h : readPlain t = (plain, '{' :: '{' :: u)) :
    readOutline (count + 1) t = (readTag u).bind fun (m, rest) => (readOutline count rest).map
      (Outline.push ⟨Text.before t ('{' :: '{' :: u), plain, Text.before u rest, m⟩) := by
  rw [readOutline, h]
  split
  · next hcons =>
    obtain ⟨rfl, htail⟩ := Prod.mk.inj hcons
    obtain rfl := (List.cons.inj (List.cons.inj htail).2).2
    cases readTag u <;> rfl
  · next hne hcons =>
    obtain ⟨-, rfl⟩ := Prod.mk.inj hcons
    exact (hne _ rfl).elim

/-- The bound on the tags does not matter when it exceeds the length of the text. -/
theorem readOutline_of_lt {count : Nat} {t : Text} (h : t.length < count) :
    readOutline count t = outline? t := by
  unfold outline?
  generalize hn : t.length = n
  induction n using Nat.strongRecOn generalizing t count with
  | ind n ih =>
    obtain ⟨k, rfl⟩ : ∃ k, count = k + 1 := ⟨count - 1, by omega⟩
    rcases readPlain_cases t with ⟨plain, hplain⟩ | ⟨plain, u, hplain⟩
    · rw [readOutline_plain _ hplain, readOutline_plain _ hplain]
    · rw [readOutline_tag _ hplain, readOutline_tag _ hplain]
      cases hu : readTag u with
      | none => rfl
      | some r =>
        -- both bounds exceed the length of what is left behind the tag
        have hlt := length_lt_of_tag hplain hu
        have hleft : readOutline k r.2 = readOutline (r.2.length + 1) r.2 :=
          ih r.2.length (by omega) (by omega) rfl
        have hright : readOutline n r.2 = readOutline (r.2.length + 1) r.2 :=
          ih r.2.length (by omega) (by omega) rfl
        simp only [Option.bind_some, hleft, hright]

/-- A text without tags. -/
theorem outline_plain {t plain : Text} (h : readPlain t = (plain, [])) :
    outline? t = some ⟨[], t, plain⟩ :=
  readOutline_plain _ h

/-- The outline of a text by its first tag. -/
theorem outline_tag {t plain u : Text} (h : readPlain t = (plain, '{' :: '{' :: u)) :
    outline? t = (readTag u).bind fun (m, rest) => (outline? rest).map
      (Outline.push ⟨Text.before t ('{' :: '{' :: u), plain, Text.before u rest, m⟩) := by
  rw [outline?, readOutline_tag _ h]
  cases hu : readTag u with
  | none => rfl
  | some r => simp only [Option.bind_some, readOutline_of_lt (length_lt_of_tag h hu)]

/-- A property of all outlines holds if it holds of texts without tags, and of texts whose first tag
has it behind it. -/
theorem outline_induction {motive : Text → Outline → Prop}
    (plain : ∀ t plain, readPlain t = (plain, []) → motive t ⟨[], t, plain⟩)
    (tag : ∀ t plain u m rest l, readPlain t = (plain, '{' :: '{' :: u) →
      readTag u = some (m, rest) → outline? rest = some l → motive rest l →
      motive t (l.push ⟨Text.before t ('{' :: '{' :: u), plain, Text.before u rest, m⟩))
    {t : Text} {l : Outline} (h : outline? t = some l) : motive t l := by
  generalize hn : t.length = n
  induction n using Nat.strongRecOn generalizing t l with
  | ind n ih =>
    rcases readPlain_cases t with ⟨before, hplain⟩ | ⟨before, u, hplain⟩
    · rw [outline_plain hplain] at h
      obtain rfl := Option.some.inj h
      exact plain t before hplain
    · rw [outline_tag hplain] at h
      obtain ⟨⟨m, rest⟩, hu, hrest⟩ := Option.bind_eq_some_iff.1 h
      obtain ⟨l, hl, rfl⟩ : ∃ l, outline? rest = some l ∧ _ := Option.map_eq_some_iff.1 hrest
      have hlt := length_lt_of_tag hplain hu
      exact tag t before u m rest l hplain hu hl (ih rest.length (by omega) hl rfl)

/-- An outline loses nothing of its text. -/
theorem written_outline {t : Text} {l : Outline} (h : outline? t = some l) : l.written = t := by
  refine outline_induction (motive := fun t l => l.written = t) (fun _ _ _ => rfl) ?_ h
  intro t plain u m rest l ht hu _ ih
  have hrest := (List.suffix_cons '}' rest).trans (behindBrace_of_readTag hu)
  have hinside := Text.before_append_of_suffix hrest
  have hsource := Text.before_append_of_suffix (suffix_of_readPlain ht)
  rw [Outline.written_push, ih, Stretch.written, List.append_assoc, List.cons_append,
    List.cons_append, hinside, hsource]

/-! ## Pieces -/

/-- The pieces of some stretches and the text behind them. -/
def piecesOf (lastSource last : Text) (blank : Bool) : List Stretch → List Piece
  | [] => Piece.textBefore last []
  | s :: ss =>
    let alone := s.tag.tag.takesLine && blankAfter blank s.text &&
      restIsBlank (ss.flatMap Stretch.written ++ lastSource)
    Piece.textBefore s.text (.tag s.tag alone :: piecesOf lastSource last false ss)

/-- The pieces of an outline on a line with only blanks so far, or not. -/
def Outline.pieces (blank : Bool) (l : Outline) : List Piece :=
  piecesOf l.lastSource l.last blank l.stretches

theorem readPieces_bind {t plain u : Text} (count : Nat) (blank : Bool)
    (h : readPlain t = (plain, '{' :: '{' :: u)) :
    readPieces (count + 1) blank t = (readTag u).bind fun (m, rest) =>
      (readPieces count false rest).map fun ps => Piece.textBefore plain
        (.tag m (m.tag.takesLine && blankAfter blank plain && restIsBlank rest) :: ps) := by
  rw [readPieces, h]
  split
  · next hcons =>
    obtain ⟨rfl, htail⟩ := Prod.mk.inj hcons
    obtain rfl := (List.cons.inj (List.cons.inj htail).2).2
    cases readTag u <;> rfl
  · next hne hcons =>
    obtain ⟨-, rfl⟩ := Prod.mk.inj hcons
    exact (hne _ rfl).elim

/-- The pieces of a text are those of its outline. -/
theorem readPieces_outline {count : Nat} (blank : Bool) {t : Text} (h : t.length < count) :
    readPieces count blank t = (outline? t).map (Outline.pieces blank) := by
  induction count generalizing blank t with
  | zero => exact absurd h (Nat.not_lt_zero _)
  | succ count ih =>
    rcases readPlain_cases t with ⟨plain, hplain⟩ | ⟨plain, u, hplain⟩
    · rw [readPieces, hplain, outline_plain hplain]
      rfl
    · rw [outline_tag hplain, readPieces_bind _ _ hplain]
      cases hu : readTag u with
      | none => rfl
      | some r =>
        have hlt := length_lt_of_tag hplain hu
        rw [Option.bind_some, Option.bind_some]
        dsimp only
        rw [ih false (by omega)]
        cases hl : outline? r.2 with
        | none => rfl
        | some l =>
          -- what stands behind the tag is written from the rest of the outline
          have hwritten := written_outline hl
          simp only [Option.map_some, Outline.pieces, Outline.push, piecesOf, ← hwritten,
            Outline.written]

end CalcDoc.Template
