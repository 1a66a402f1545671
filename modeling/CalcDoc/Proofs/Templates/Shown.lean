import CalcDoc.Proofs.Templates.Bare
import CalcDoc.Proofs.Templates.Closed
import CalcDoc.Proofs.Trimming

/-!
# Text that a template shows

Text outside of all blocks of a template is written, whatever the data and the answers are; only
blanks at its ends may be trimmed.

- `Outline.texts`: the texts between the tags.
- `exists_text_of_lines`: lines in which no tag begins stand in one of these texts.
- `exists_pieces`, `exists_trimPieces`: such a text among the pieces, before and after trimming.
- `Dialogue.Ends`: what holds of every result of a dialogue.
- `shown_of_run`: text that no block is open in front of stands in the output.
-/

namespace CalcDoc.Template

/-! ## Texts between tags -/

namespace Outline

/-- The text in front of the first tag. -/
def first (l : Outline) : Text :=
  match l.stretches with
  | [] => l.last
  | s :: _ => s.text

theorem first_plain_append (t : Text) (l : Outline) :
    ((plain t).append l).first = t ++ l.first := by
  obtain ⟨ss, lastSource, last⟩ := l
  cases ss <;> rfl

/-- The texts in front of the tags, and the text behind the last one. -/
def texts (l : Outline) : List Text :=
  l.stretches.map Stretch.text ++ [l.last]

theorem texts_prepend (source text : Text) (l : Outline) :
    (l.prepend source text).texts = (text ++ l.first) :: l.texts.tail := by
  obtain ⟨ss, lastSource, last⟩ := l
  cases ss <;> rfl

/-- The text where two outlines meet. -/
theorem getElem?_texts_append (a b : Outline) :
    (a.append b).texts[a.tags.length]? = some (a.last ++ b.first) := by
  have htexts : (a.append b).texts = a.stretches.map Stretch.text ++
      (b.prepend a.lastSource a.last).texts := by
    simp [texts, append]
  have hlength : a.tags.length = (a.stretches.map Stretch.text).length := by
    simp [tags]
  rw [htexts, hlength, List.getElem?_append_right (Nat.le_refl _), Nat.sub_self, texts_prepend]
  rfl

/-- A line feed in front of an outline, if a text follows a line feed there, does not matter to
where the text stands. -/
theorem exists_text_of_line {l e b : Outline} {x y : Text}
    (h : (plain ['\n']).append l = e.append b) (hb : b.first = '\n' :: x ++ y) :
    ∃ t, l.texts[e.tags.length]? = some t ∧ x <:+: t := by
  have hline : ((plain ['\n']).append l).texts = ('\n' :: l.first) :: l.texts.tail :=
    texts_prepend ['\n'] ['\n'] l
  have hmeet := getElem?_texts_append e b
  have htexts : l.texts = l.first :: l.texts.tail := by
    have hnil := texts_prepend [] [] l
    rw [prepend_nil] at hnil
    exact hnil
  rw [← h, hline, hb] at hmeet
  cases hn : e.tags.length with
  | zero =>
    rw [hn] at hmeet
    have hfirst : '\n' :: l.first = e.last ++ '\n' :: (x ++ y) := Option.some.inj hmeet
    refine ⟨l.first, by rw [htexts]; rfl, ?_⟩
    cases hlast : e.last with
    | nil =>
      rw [hlast] at hfirst
      exact ⟨[], y, (List.cons.inj hfirst).2.symm⟩
    | cons c p =>
      rw [hlast] at hfirst
      refine ⟨p ++ ['\n'], y, ?_⟩
      rw [(List.cons.inj hfirst).2]
      simp
  | succ n =>
    rw [hn] at hmeet
    refine ⟨e.last ++ '\n' :: (x ++ y), by rw [htexts]; exact hmeet, e.last ++ ['\n'], y, ?_⟩
    simp

end Outline

/-- Lines in which no tag begins stand in one text of the outline, below closed lines. -/
theorem exists_text_of_lines {t : Text} {l e : Outline} {above ls below : List Text}
    (hl : outline? t = some l) (hlines : Text.lines t = above ++ (ls ++ below))
    (he : Closes above e) (hls : ∀ m ∈ ls, NoTag m) (hne : ls ≠ []) :
    ∃ u, l.texts[e.tags.length]? = some u ∧ Text.unlines ls <:+: u ∧
      l.tags.take e.tags.length = e.tags := by
  -- the outline behind the closed lines begins with the lines
  obtain ⟨b, y, hb, hjoin⟩ : ∃ b y, b.first = '\n' :: Text.unlines ls ++ y ∧
      (Outline.plain ['\n']).append l = e.append b := by
    have hwhole := lineOutline_eq (Text.lines_ne_nil t)
    rw [Text.unlines_lines, hl, Option.map_some, hlines, he, closes_of_noTag hls] at hwhole
    obtain ⟨b, hb, hjoin⟩ := Option.map_eq_some_iff.1 hwhole
    obtain ⟨c, -, rfl⟩ := Option.map_eq_some_iff.1 hb
    refine ⟨_, c.first, ?_, hjoin.symm⟩
    rw [Outline.first_plain_append, flatMap_line_eq hne]
  obtain ⟨u, hu, hx⟩ := Outline.exists_text_of_line hjoin hb
  refine ⟨u, hu, hx, ?_⟩
  have htags := congrArg Outline.tags hjoin
  rw [Outline.tags_append, Outline.tags_append] at htags
  have hl : l.tags = e.tags ++ b.tags := htags
  rw [hl, List.take_left]

/-! ## Pieces -/

theorem textBefore_append (t : Text) (ps qs : List Piece) :
    Piece.textBefore t (ps ++ qs) = Piece.textBefore t ps ++ qs := by
  rw [Piece.textBefore, Piece.textBefore]
  split <;> rfl

theorem textBefore_of_ne_nil {t : Text} (ht : t ≠ []) (ps : List Piece) :
    Piece.textBefore t ps = .text t :: ps := by
  rw [Piece.textBefore, if_neg (by simpa using ht)]

/-- A text of an outline among its pieces, with the tags in front of it. -/
theorem exists_pieces (lastSource : Text) {last t : Text} {ss : List Stretch} {n : Nat}
    (h : (ss.map Stretch.text ++ [last])[n]? = some t) (ht : t ≠ []) (blank : Bool) :
    ∃ ps qs, piecesOf lastSource last blank ss = ps ++ .text t :: qs ∧
      pieceTags ps = (ss.map Stretch.tag).take n := by
  induction ss generalizing n blank with
  | nil =>
    cases n with
    | zero =>
      obtain rfl := Option.some.inj h
      exact ⟨[], [], textBefore_of_ne_nil ht [], rfl⟩
    | succ n => cases n <;> cases h
  | cons s ss ih =>
    rw [piecesOf]
    cases n with
    | zero =>
      obtain rfl := Option.some.inj h
      exact ⟨[], _, textBefore_of_ne_nil ht _, rfl⟩
    | succ n =>
      obtain ⟨ps, qs, hpieces, htags⟩ := ih h false
      rw [hpieces, ← List.cons_append, textBefore_append]
      refine ⟨_, qs, rfl, ?_⟩
      rw [pieceTags_textBefore, pieceTags, htags]
      rfl

theorem isBlank_of_isIndent (c : Char) (h : isIndent c = true) : isBlank c = true := by
  simp only [isIndent, Bool.or_eq_true, beq_iff_eq] at h
  rcases h with rfl | rfl <;> decide

theorem trims_trimBeginning (trims line : Bool) (t : Text) :
    Trims t (trimBeginning trims line t) := by
  rw [trimBeginning]
  split
  · exact Trims.dropWhile isBlank (fun _ h => h) t
  · split
    · refine (Trims.dropWhile isIndent isBlank_of_isIndent t).trans ?_
      generalize t.dropWhile isIndent = u
      rw [dropLineEnd.eq_def]
      split
      · refine ⟨['\r', '\n'], [], by simp, ?_, by simp⟩
        exact List.forall_mem_cons.2 ⟨rfl, List.forall_mem_singleton.2 rfl⟩
      · exact ⟨['\n'], [], by simp, List.forall_mem_singleton.2 rfl, by simp⟩
      · exact Trims.refl _
    · exact Trims.refl t

theorem trims_trimEnding (t : Text) (ps : List Piece) : Trims t (trimEnding t ps) := by
  unfold trimEnding
  split
  · split
    · exact Trims.dropEndWhile isBlank (fun _ h => h) t
    · split
      · exact Trims.dropEndWhile isIndent isBlank_of_isIndent t
      · exact Trims.refl t
  · exact Trims.refl t

/-- A text stays among the pieces when they are trimmed, but for blanks at its ends. -/
theorem exists_trimPieces (trims line : Bool) (ps : List Piece) (t : Text) (qs : List Piece) :
    ∃ ps' u qs', trimPieces trims line (ps ++ .text t :: qs) = ps' ++ .text u :: qs' ∧
      pieceTags ps' = pieceTags ps ∧ Trims t u := by
  induction ps generalizing trims line with
  | nil =>
    exact ⟨[], _, _, rfl, rfl, (trims_trimBeginning trims line t).trans (trims_trimEnding _ qs)⟩
  | cons p ps ih =>
    cases p with
    | text v =>
      obtain ⟨ps', u, qs', hps, htags, hu⟩ := ih trims (line && trims && v.all isSpace)
      exact ⟨_ :: ps', u, qs', congrArg _ hps, htags, hu⟩
    | tag m alone =>
      obtain ⟨ps', u, qs', hps, htags, hu⟩ :=
        ih (m.trimsOn trims) (if m.tag.takesLine then alone else line)
      exact ⟨_ :: ps', u, qs', congrArg _ hps, congrArg (m :: ·) htags, hu⟩

/-! ## Results -/

namespace Dialogue

variable {α β : Type}

/-- Every result of the dialogue has a property. -/
def Ends (p : α → Prop) : Dialogue α → Prop
  | .done a => p a
  | .fault _ => True
  | .ask _ next => ∀ answer, Ends p (next answer)

theorem Ends.andThen {d : Dialogue α} {k : α → Dialogue β} {p : α → Prop} {q : β → Prop}
    (hd : d.Ends p) (hk : ∀ a, p a → (k a).Ends q) : (d.andThen k).Ends q := by
  induction d with
  | done a => exact hk a hd
  | fault f => trivial
  | ask x next ih => exact fun answer => ih answer (hd answer)

theorem ends_true (d : Dialogue α) : d.Ends fun _ => True := by
  induction d with
  | done a => trivial
  | fault f => trivial
  | ask x next ih => exact ih

theorem Ends.of_run {σ ε : Type} {answer : σ → String → Except ε String × σ} {d : Dialogue α}
    {p : α → Prop} (hd : d.Ends p) {s t : σ} {a : α} (h : d.run answer s = (.ok a, t)) : p a := by
  induction d generalizing s with
  | done b =>
    obtain ⟨hb, -⟩ := Prod.mk.inj h
    obtain rfl := Except.ok.inj hb
    exact hd
  | fault f => cases h
  | ask x next ih =>
    rw [run] at h
    split at h
    · exact ih _ (hd _) h
    · cases h

end Dialogue

/-- A text among the nodes stands in what they are rendered as. -/
theorem ends_renderNodes (m : Mode) (s : Scope) (ns : List Node) (t : Text) (more : List Node) :
    (renderNodes m (ns ++ .text t :: more) s).Ends fun u => t <:+: u := by
  induction ns with
  | nil =>
    show ((renderNodes m more s).andThen fun u => .done (t ++ u)).Ends _
    exact (renderNodes m more s).ends_true.andThen fun u _ => ⟨[], u, rfl⟩
  | cons n ns ih =>
    rw [List.cons_append, renderNodes]
    refine (n.render m s).ends_true.andThen fun u _ => ih.andThen fun v hv => ?_
    exact hv.trans (List.suffix_append u v).isInfix

/-- Text that no block is open in front of stands in the output, but for blanks at its ends. -/
theorem shown_of_run {σ ε : Type} {answer : σ → String → Except ε String × σ} {t : Text}
    {template : Template} {l : Outline} (htemplate : Template.ofText? t = some template)
    (hl : outline? t = some l) {n : Nat} {u x : Text} (hu : l.texts[n]? = some u) (hx : x <:+: u)
    (hclosed : (ofTags? (l.tags.take n)).isSome) {m : Mode} {data : Json} {start finish : σ}
    {output : Text} (h : (template.render m data).run answer start = (.ok output, finish)) :
    Text.trim x <:+: output := by
  by_cases hnone : u = []
  · rw [hnone, List.infix_nil] at hx
    rw [hx]
    exact ⟨[], output, rfl⟩
  · obtain ⟨ps, qs, hpieces, htags⟩ := exists_pieces l.lastSource hu hnone true
    obtain ⟨ps', v, qs', htrim, htags', hv⟩ := exists_trimPieces false false ps u qs
    have hread : nest [] [] (ps' ++ .text v :: qs') = some template := by
      rw [← htrim, ← hpieces, ← htemplate, Template.ofText?,
        readPieces_outline true (Nat.lt_succ_self _), hl]
      rfl
    -- the blocks in front of the text are closed there
    obtain ⟨ns, hns⟩ : ∃ ns, nest [] [] ps' = some ns := by
      have hbare := bareNodes_nest [] [] ps'
      rw [htags', htags] at hbare
      have hsome : ((nest [] [] ps').map bareNodes).isSome := by
        rw [hbare]
        exact hclosed
      rw [Option.isSome_map] at hsome
      exact Option.isSome_iff_exists.1 hsome
    rw [nest_append hns, nest] at hread
    obtain ⟨more, hmore⟩ := nest_back hread
    have htemplateNodes : template = ns ++ .text v :: more.reverse := by
      rw [← List.reverse_reverse template, ← hmore]
      simp [outermost]
    rw [htemplateNodes, Template.render] at h
    exact (hv.infix_trim hx).trans ((ends_renderNodes m _ ns v more.reverse).of_run h)

end CalcDoc.Template
