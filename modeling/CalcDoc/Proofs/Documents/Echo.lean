import CalcDoc.Proofs.Documents.Counting
import CalcDoc.Proofs.Documents.Decomposition
import CalcDoc.Proofs.Documents.Fragments
import CalcDoc.Proofs.Templates.Shown

/-!
# Documents shown with their blocks

A document is rendered with its code blocks or without them, by the same session. That makes no
difference to the session as long as the template does not look into the blocks.

- `StandApart`: no tag begins in a block, and none reaches over one.
- `tags_lines`, `closed_lines`: then the tags are the same with the blocks and without them.
- `Document.block_shown`: a block is shown as it is written.
- `Document.render_echo`: the requests and the blocks that are run are the same, and the blocks are
  shown.
- `standApart_of_written`: blocks among plain text and references stand apart.
-/

namespace CalcDoc

open Template (NoTag Closed Closes Outline outline? lineOutline? closes_of_noTag ofTags? bareNodes)

/-- In some parts below lines of prose, no tag begins in a block, and above each block the tags of
the prose are the same whatever lines stand below. -/
def StandApart (prose : List Text) (parts : List (Part Text)) : Prop :=
  ∀ above opening body closing below, parts = above ++ .code opening body closing :: below →
    (∀ l ∈ (Part.code opening body closing).lines, NoTag l) ∧
      Closed (prose ++ above.flatMap Part.prose)

section Parts

variable {prose : List Text} {parts : List (Part Text)}

theorem StandApart.of_cons {part : Part Text} (h : StandApart prose (part :: parts)) :
    StandApart (prose ++ part.prose) parts := by
  rintro above opening body closing below rfl
  obtain ⟨hcode, hclosed⟩ := h (part :: above) opening body closing below rfl
  rw [List.flatMap_cons, ← List.append_assoc] at hclosed
  exact ⟨hcode, hclosed⟩

theorem StandApart.of_append {below : List (Part Text)} (h : StandApart prose (parts ++ below)) :
    StandApart prose parts := by
  rintro above opening body closing between rfl
  exact h above opening body closing (between ++ below) (by simp)

/-- Below a block it does not matter what stands above it. -/
theorem StandApart.below_code {opening closing : Text} {body : List Text} {a : Outline}
    (h : StandApart prose (.code opening body closing :: parts)) (hprose : Closes prose a) :
    StandApart [] parts := by
  rintro above opening' body' closing' below rfl
  obtain ⟨hcode, c, hc⟩ := h (.code opening body closing :: above) opening' body' closing' below rfl
  exact ⟨hcode, hprose.cancel hc⟩

theorem tags_map_append (a : Outline) (l? : Option Outline) :
    (l?.map a.append).map Outline.tags = (l?.map Outline.tags).map (a.tags ++ ·) := by
  cases l? with
  | none => rfl
  | some l => exact congrArg some (Outline.tags_append a l)

/-- The tags are the same with the blocks and without them. -/
theorem tags_lines (h : StandApart prose parts) :
    (lineOutline? (prose ++ parts.flatMap Part.lines)).map Outline.tags =
      (lineOutline? (prose ++ parts.flatMap Part.prose)).map Outline.tags := by
  induction parts generalizing prose with
  | nil => rfl
  | cons part parts ih =>
    have hprose (hlines : part.lines = part.prose) :
        (lineOutline? (prose ++ (part :: parts).flatMap Part.lines)).map Outline.tags =
          (lineOutline? (prose ++ (part :: parts).flatMap Part.prose)).map Outline.tags := by
      have hrest := ih h.of_cons
      rw [List.append_assoc, List.append_assoc] at hrest
      rw [List.flatMap_cons, List.flatMap_cons, hlines]
      exact hrest
    cases part with
    | plain line => exact hprose rfl
    | listing opening body => exact hprose rfl
    | code opening body closing =>
      obtain ⟨hcode, hclosed⟩ := h [] opening body closing parts rfl
      rw [List.flatMap_nil, List.append_nil] at hclosed
      obtain ⟨a, ha⟩ := hclosed
      have hrest := ih (h.below_code ha)
      rw [List.nil_append, List.nil_append] at hrest
      rw [List.flatMap_cons, List.flatMap_cons, ha, ha, closes_of_noTag hcode, tags_map_append,
        tags_map_append, tags_map_append, hrest]
      -- the lines of the block have no tags
      show ((_ : Option _).map ([] ++ ·)).map _ = _
      rw [show (([] : List Template.MarkedTag) ++ ·) = id from rfl, Option.map_id]
      rfl

/-- Closed prose is closed with its blocks in it. -/
theorem closed_lines (h : StandApart prose parts)
    (hclosed : Closed (prose ++ parts.flatMap Part.prose)) :
    Closed (prose ++ parts.flatMap Part.lines) := by
  induction parts generalizing prose with
  | nil => exact hclosed
  | cons part parts ih =>
    have hprose (hlines : part.lines = part.prose) :
        Closed (prose ++ (part :: parts).flatMap Part.lines) := by
      rw [List.flatMap_cons, ← List.append_assoc] at hclosed ⊢
      rw [hlines]
      exact ih h.of_cons hclosed
    cases part with
    | plain line => exact hprose rfl
    | listing opening body => exact hprose rfl
    | code opening body closing =>
      obtain ⟨hcode, habove⟩ := h [] opening body closing parts rfl
      rw [List.flatMap_nil, List.append_nil] at habove
      obtain ⟨a, ha⟩ := habove
      obtain ⟨c, hc⟩ := hclosed
      obtain ⟨b, hb⟩ := ih (h.below_code ha) (ha.cancel hc)
      exact ⟨_, ha.append ((closes_of_noTag hcode).append hb)⟩

/-- The lines above a block are closed, and their tags are those of the prose there. -/
theorem exists_closes_above {above below : List (Part Text)} {opening closing : Text}
    {body : List Text} (h : StandApart [] (above ++ .code opening body closing :: below))
    (htop : (Template.ofText? (Text.unlines (above.flatMap Part.prose))).isSome) :
    ∃ e, Closes (above.flatMap Part.lines) e ∧ (ofTags? e.tags).isSome := by
  have habove : StandApart [] above := h.of_append
  obtain ⟨-, hclosed⟩ := h above opening body closing below rfl
  obtain ⟨e, he⟩ := closed_lines habove hclosed
  rw [List.nil_append] at he
  refine ⟨e, he, ?_⟩
  have hsame := tags_lines habove
  rw [List.nil_append, List.nil_append, he.lineOutline, Template.tags_lineOutline] at hsame
  obtain ⟨l, hl, htags⟩ := Option.map_eq_some_iff.1 hsame.symm
  have hread := Template.bareNodes_ofText? (Text.unlines (above.flatMap Part.prose))
  rw [hl, Option.bind_some, htags] at hread
  rw [← hread, Option.isSome_map]
  exact htop

end Parts

/-! ## The session -/

/-- What a rendered document says of its session. -/
def Rendered.outcome (r : Rendered) : Session.Report × Script.Namespace :=
  (r.report, r.names)

namespace Document

theorem outcome_conclude (settings : Settings) (output output' : Text) (s : Session) :
    (conclude settings output s).map Rendered.outcome =
      (conclude settings output' s).map Rendered.outcome := by
  rw [conclude, conclude]
  split <;> rfl

/-- What becomes of the session depends on what the template asks for alone. -/
theorem outcome_renderWith {settings : Settings} {data : Json} {t t' : Template}
    (h : (t.render (mode settings) data).forget = (t'.render (mode settings) data).forget)
    (start : Session) :
    (renderWith settings t data start).map Rendered.outcome =
      (renderWith settings t' data start).map Rendered.outcome := by
  have hrun := Template.Dialogue.run_forget Session.requestText (t.render (mode settings) data)
    start
  have hrun' := Template.Dialogue.run_forget Session.requestText (t'.render (mode settings) data)
    start
  rw [h, hrun'] at hrun
  rw [renderWith, renderWith]
  rcases ht : (t.render (mode settings) data).run Session.requestText start with ⟨r, s⟩
  rcases ht' : (t'.render (mode settings) data).run Session.requestText start with ⟨r', s'⟩
  rw [ht, ht'] at hrun
  obtain ⟨hr, rfl⟩ := Prod.mk.inj hrun
  cases r with
  | ok output =>
    cases r' with
    | ok output' => exact outcome_conclude settings output output' _
    | error e => cases hr
  | error e =>
    cases r' with
    | ok output' => cases hr
    | error e' =>
      obtain rfl := Except.error.inj hr
      cases e' <;> rfl

/-- The tags of a document are the same with its blocks and without them. -/
theorem tags_outline {text : Text} {parts : List (Part Text)}
    (hlines : Text.lines text = parts.flatMap Part.lines) (h : StandApart [] parts) :
    (outline? text).map Outline.tags =
      (outline? (Text.unlines (parts.flatMap Part.prose))).map Outline.tags := by
  have htags := tags_lines h
  rw [List.nil_append, List.nil_append, ← hlines, Template.tags_lineOutline,
    Template.tags_lineOutline, Text.unlines_lines] at htags
  exact htags

/-- A document whose blocks stand apart has the same session with its blocks and without them. -/
theorem outcome_render {settings : Settings} {text : Text} {parts : List (Part Text)}
    {s : Segmentation} (hsegment : segment settings.markers text = .ok s)
    (hprose : s.prose = Text.unlines (parts.flatMap Part.prose))
    (hlines : Text.lines text = parts.flatMap Part.lines) (h : StandApart [] parts) (data : Json) :
    (render { settings with blocks := .echo } text data).map Rendered.outcome =
      (render { settings with blocks := .strip } text data).map Rendered.outcome := by
  have hbare : (Template.ofText? text).map bareNodes =
      (Template.ofText? s.prose).map bareNodes := by
    have htags := tags_outline hlines h
    have hbind (l? : Option Outline) :
        (l?.bind fun l => ofTags? l.tags) = (l?.map Outline.tags).bind ofTags? := by
      cases l? <;> rfl
    rw [Template.bareNodes_ofText?, Template.bareNodes_ofText?, hprose, hbind, hbind, htags]
  have hecho : segment ({ settings with blocks := .echo } : Settings).markers text = .ok s :=
    hsegment
  have hstrip : segment ({ settings with blocks := .strip } : Settings).markers text = .ok s :=
    hsegment
  cases ht : Template.ofText? text with
  | none =>
    rw [ht] at hbare
    have ht' : Template.ofText? s.prose = none := Option.map_eq_none_iff.1 hbare.symm
    rw [render_eq_malformed hecho ht, render_eq_malformed hstrip ht']
  | some t =>
    rw [ht] at hbare
    obtain ⟨t', ht', hnodes⟩ := Option.map_eq_some_iff.1 hbare.symm
    have hasks : (Template.render (mode settings) t data).forget =
        (Template.render (mode settings) t' data).forget := by
      rw [Template.render, Template.render, Template.forget_renderNodes, ← hnodes,
        ← Template.forget_renderNodes]
    rw [render_eq_renderWith hecho ht, render_eq_renderWith hstrip ht']
    exact outcome_renderWith hasks (Session.ofSegmentation s settings)

/-- A block that stands apart is shown as it is written, if the template has no block open in front
of it; only blanks at its ends may be trimmed. -/
theorem block_shown {settings : Settings} {text : Text} {s : Segmentation}
    (hsegment : segment settings.markers text = .ok s) {above below : List (Part Text)}
    {opening closing : Text} {body : List Text}
    (hlines : Text.lines text =
      (above ++ .code opening body closing :: below).flatMap Part.lines)
    (h : StandApart [] (above ++ .code opening body closing :: below)) {data : Json} {r : Rendered}
    (hr : render { settings with blocks := .echo } text data = .ok r)
    (htop : (Template.ofText? (Text.unlines (above.flatMap Part.prose))).isSome) :
    Text.trim (Text.unlines (Part.code opening body closing).lines) <:+: r.output := by
  obtain ⟨hcode, -⟩ := h above opening body closing below rfl
  obtain ⟨e, he, htags⟩ := exists_closes_above h htop
  have hecho : segment ({ settings with blocks := .echo } : Settings).markers text = .ok s :=
    hsegment
  cases ht : Template.ofText? text with
  | none =>
    rw [render_eq_malformed hecho ht] at hr
    cases hr
  | some t =>
    rw [render_eq_renderWith hecho ht] at hr
    obtain ⟨finish, hrun, -⟩ := exists_run_of_renderWith hr
    obtain ⟨l, hl, -⟩ := Template.exists_outline_of_ofText? ht
    rw [List.flatMap_append, List.flatMap_cons] at hlines
    obtain ⟨u, hu, hx, htake⟩ :=
      Template.exists_text_of_lines hl hlines he hcode (List.cons_ne_nil _ _)
    exact Template.shown_of_run ht hl hu hx (by rw [htake]; exact htags) hrun

/-- If no tag of the template begins in a block or reaches over one, it makes no difference to the
session whether a document is shown with its blocks or without them: the requests, the blocks that
are run, the names at the end and the errors are the same. And each block that stands outside of the
blocks of the template is shown as it is written, but for blanks at its ends. -/
theorem render_echo {settings : Settings} {text : Text} {s : Segmentation}
    (hsegment : segment settings.markers text = .ok s) {parts : List (Part Text)}
    (hadmits : settings.markers.Admits parts) (hlines : Text.lines text = parts.flatMap Part.lines)
    (h : StandApart [] parts) (data : Json) :
    (render { settings with blocks := .echo } text data).map Rendered.outcome =
        (render { settings with blocks := .strip } text data).map Rendered.outcome ∧
      ∀ r, render { settings with blocks := .echo } text data = .ok r →
        ∀ above opening body closing below, parts = above ++ .code opening body closing :: below →
          (Template.ofText? (Text.unlines (above.flatMap Part.prose))).isSome →
          Text.trim (Text.unlines (Part.code opening body closing).lines) <:+: r.output := by
  obtain ⟨parts', hadmits', hlines', rfl⟩ := exists_parts hsegment
  obtain rfl := hadmits'.unique hadmits (hlines'.symm.trans hlines)
  refine ⟨outcome_render hsegment rfl hlines h data, ?_⟩
  rintro r hr above opening body closing below rfl htop
  exact block_shown hsegment hlines h hr htop

end Document

/-! ## Plain text and references -/

open Template (Fragment written)

/-- A tag that asks for a name, with no text before it. -/
def referenceStretch (name : Text) : Template.Stretch :=
  ⟨[], [], "_ \"".toList ++ name ++ "\"\x7d\x7d".toList,
    ⟨.call (Template.referenceCall name), false, false⟩⟩

theorem outline_reference {name : Text} (hname : ∀ c ∈ name, Template.isWordChar c) (rest : Text) :
    outline? ((Fragment.reference name).written ++ rest) =
      (outline? rest).map (Outline.append ⟨[referenceStretch name], [], []⟩) := by
  have hwritten : (Fragment.reference name).written ++ rest =
      '{' :: '{' :: ("_ \"".toList ++ name ++ "\"\x7d\x7d".toList ++ rest) := by
    simp [Fragment.written]
  have hsource := Text.before_append []
    ('{' :: '{' :: ("_ \"".toList ++ name ++ "\"\x7d\x7d".toList ++ rest))
  rw [List.nil_append] at hsource
  rw [hwritten, Template.outline_tag rfl, Template.readTag_reference hname, Option.bind_some]
  dsimp only
  rw [hsource, Text.before_append]
  congr 1
  funext l
  rw [Outline.append, Outline.prepend_nil]
  rfl

/-- The outline of a row of fragments does not depend on what follows. -/
theorem exists_outline_written {fs : List Fragment} (hfs : ∀ f ∈ fs, f.Valid) :
    ∃ a : Outline, ∀ rest, outline? (written fs ++ rest) = (outline? rest).map a.append := by
  induction fs with
  | nil =>
    refine ⟨Outline.plain [], fun rest => ?_⟩
    show outline? rest = _
    cases outline? rest <;> simp [Outline.append, Outline.plain]
  | cons f fs ih =>
    obtain ⟨a, ha⟩ := ih fun g hg => hfs g (List.mem_cons_of_mem _ hg)
    -- what is read of the first fragment comes before the others
    have step {b : Outline} (hf : ∀ rest, outline? (f.written ++ rest) =
        (outline? rest).map b.append) (rest : Text) :
        outline? (written (f :: fs) ++ rest) = (outline? rest).map (b.append a).append := by
      have htext : written (f :: fs) ++ rest = f.written ++ (written fs ++ rest) := by
        simp [written]
      rw [htext, hf, ha, Option.map_map]
      congr 1
      funext c
      exact (Outline.append_assoc b a c).symm
    have hvalid := hfs f List.mem_cons_self
    cases f with
    | plain c =>
      obtain ⟨hopen, -, hslash⟩ := hvalid
      exact ⟨_, step fun rest => Template.outline_append (t := [c])
        (Template.readPlain_cons hopen hslash rest)⟩
    | reference name =>
      obtain ⟨-, hname⟩ := hvalid
      exact ⟨_, step fun rest => outline_reference hname rest⟩

/-- Lines of plain text and references are closed. -/
theorem closed_written {ls : List Text}
    (h : ∀ l ∈ ls, ∃ fs : List Fragment, (∀ f ∈ fs, f.Valid) ∧ l = written fs) : Closed ls := by
  induction ls with
  | nil => exact ⟨_, closes_of_noTag (by simp)⟩
  | cons l ls ih =>
    obtain ⟨fs, hfs, rfl⟩ := h l List.mem_cons_self
    obtain ⟨a, ha⟩ := exists_outline_written hfs
    obtain ⟨b, hb⟩ := ih fun m hm => h m (List.mem_cons_of_mem _ hm)
    have hline : Closes [written fs] ((Outline.plain ['\n']).append a) := by
      intro below
      show outline? ('\n' :: (written fs ++ below.flatMap ('\n' :: ·))) = _
      rw [Template.outline_line, ha, Option.map_map]
      congr 1
      funext c
      exact (Outline.append_assoc _ a c).symm
    exact ⟨_, hline.append hb⟩

/-- Blocks without braces of tags stand apart from prose of plain text and references. -/
theorem standApart_of_written {parts : List (Part Text)}
    (hcode : ∀ part ∈ parts, part.isCode → ∀ l ∈ part.lines, NoTag l)
    (hprose : ∀ l ∈ parts.flatMap Part.prose,
      ∃ fs : List Fragment, (∀ f ∈ fs, f.Valid) ∧ l = written fs) : StandApart [] parts := by
  rintro above opening body closing below rfl
  refine ⟨hcode _ (by simp) rfl, closed_written fun l hl => hprose l ?_⟩
  rw [List.flatMap_append]
  exact List.mem_append_left _ hl

/-- A block with a reference above it and one below. -/
def betweenReferences : Text :=
  "\x7b\x7b_ \"a\"\x7d\x7d\n```calc\na = 1\n```\n\x7b\x7b_ \"a\"\x7d\x7d".toList

/-- A block that has a tag in a string. -/
def tagInBlock : Text :=
  "```calc\na = \"\x7b\x7b_ 'b'\x7d\x7d\"\n```\n\x7b\x7b_ \"a\"\x7d\x7d".toList

/-- The block between the references is shown, and run as without it. -/
theorem Document.render_echo_of_one_block :
    ∃ r r', Document.render {} betweenReferences .null = .ok r ∧
      Document.render { blocks := .strip } betweenReferences .null = .ok r' ∧
      r.outcome = r'.outcome ∧ "```calc\na = 1\n```".toList <:+: r.output := by
  have hsegment : segment ({} : Settings).markers betweenReferences =
      .ok ⟨[⟨0, 1, 2, ["a = 1".toList]⟩], 2,
        ["\x7b\x7b_ \"a\"\x7d\x7d".toList, "\x7b\x7b_ \"a\"\x7d\x7d".toList]⟩ := rfl
  let line : Text := "\x7b\x7b_ \"a\"\x7d\x7d".toList
  let parts : List (Part Text) :=
    [.plain line, .code "```calc".toList ["a = 1".toList] "```".toList, .plain line]
  have hadmits : ({} : Settings).markers.Admits parts :=
    .plain rfl rfl (.code rfl (by decide) rfl (.plain rfl rfl .nil))
  have hline : ∃ fs : List Fragment, (∀ f ∈ fs, f.Valid) ∧ line = written fs :=
    ⟨[.reference ['a']], by simp [Fragment.Valid, Template.isWordChar], rfl⟩
  have hapart : StandApart [] parts :=
    standApart_of_written (by decide +kernel) (by simpa [parts, Part.prose] using hline)
  obtain ⟨r, hecho⟩ := exists_ok_of_isSome (x := Document.render {} betweenReferences .null)
    (by decide +kernel)
  obtain ⟨r', hstrip⟩ := exists_ok_of_isSome
    (x := Document.render { blocks := .strip } betweenReferences .null) (by decide +kernel)
  obtain ⟨houtcome, hshown⟩ := Document.render_echo hsegment hadmits rfl hapart .null
  have hblock := hshown r hecho [.plain line] _ _ _ _ rfl (by decide +kernel)
  have hsame : (Except.ok r : Except RenderError Rendered).map Rendered.outcome =
      (Except.ok r').map Rendered.outcome := by
    rw [← hecho, ← hstrip]
    exact houtcome
  exact ⟨r, r', hecho, hstrip, Except.ok.inj hsame, hblock⟩

/-- A tag in a block asks for a value when the block is shown, which then reads otherwise. -/
theorem Document.render_echo_ne_strip :
    ∃ r r', Document.render {} tagInBlock .null = .ok r ∧
      Document.render { blocks := .strip } tagInBlock .null = .ok r' ∧
      r.report.requests ≠ r'.report.requests ∧
      ¬ "```calc\na = \"\x7b\x7b_ 'b'\x7d\x7d\"\n```".toList <:+: r.output := by
  obtain ⟨r, hecho⟩ := exists_ok_of_isSome (x := Document.render {} tagInBlock .null)
    (by decide +kernel)
  obtain ⟨r', hstrip⟩ := exists_ok_of_isSome
    (x := Document.render { blocks := .strip } tagInBlock .null) (by decide +kernel)
  have hrequests : (Document.render {} tagInBlock .null).toOption.all fun r =>
      r.report.requests == 2 && !decide
        ("```calc\na = \"\x7b\x7b_ 'b'\x7d\x7d\"\n```".toList <:+: r.output) := by
    decide +kernel
  have hrequests' : (Document.render { blocks := .strip } tagInBlock .null).toOption.all fun r =>
      r.report.requests == 1 := by
    decide +kernel
  rw [hecho] at hrequests
  rw [hstrip] at hrequests'
  simp only [Except.toOption, Option.all_some, Bool.and_eq_true, beq_iff_eq,
    Bool.not_eq_eq_eq_not, Bool.not_true, decide_eq_false_iff_not] at hrequests hrequests'
  refine ⟨r, r', hecho, hstrip, ?_, hrequests.2⟩
  rw [hrequests.1, hrequests']
  decide

end CalcDoc
