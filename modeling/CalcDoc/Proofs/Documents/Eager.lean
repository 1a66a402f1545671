import CalcDoc.Document
import CalcDoc.Proofs.Documents.Decomposition
import CalcDoc.Proofs.Documents.Places

/-!
# Documents read from top to bottom

A document of plain text and references shows what a reader from top to bottom would fill in who
runs each block where it stands. The renderer sees the prose without its blocks; only the counts of
references tell it which blocks stand above a reference.

- `readEagerly`: the reading from top to bottom.
- `blockCount`, `neededBlocks`: the blocks of a document, and those that a reference stands below.
- `mirrors_readEagerly`: the session does what the reading does, by induction on the parts.
- `Markers.WrittenAs`: the parts that a text is written as.
- `render_eager`: the same for a whole document.
-/

namespace CalcDoc

open Script (Namespace Value)
open Template (Fragment Dialogue written)

/-- The references in some parts. -/
def partReferences (parts : List (Part (List Fragment))) : Nat :=
  lineReferences (parts.flatMap Part.prose)

/-- Reads the parts of a document from top to bottom, from line `n` on, with `index` blocks above it
and the names that these have left. Runs each block where it stands, and fills each line with the
values that names have there. A block without a reference below it has nothing to show, and is left
out. -/
def readEagerly (sentinel : String) (n index : Nat) (names : Namespace) :
    List (Part (List Fragment)) → Except BlockFailure (List Text × Namespace)
  | [] => .ok ([], names)
  | .code _ body _ :: parts =>
    if partReferences parts = 0 then
      readEagerly sentinel (n + body.length + 2) (index + 1) names parts
    else
      let outcome := Script.runSource names (Text.unlines body)
      match outcome.error? with
      | none => readEagerly sentinel (n + body.length + 2) (index + 1) outcome.names parts
      | some err => .error ⟨index, n, err⟩
  | part :: parts =>
    (readEagerly sentinel (n + part.prose.length) index names parts).map fun (ls, names') =>
      (part.prose.map (fillLine sentinel names) ++ ls, names')

/-- The blocks of some parts. -/
def blockCount : List (Part (List Fragment)) → Nat
  | [] => 0
  | .code _ _ _ :: parts => blockCount parts + 1
  | _ :: parts => blockCount parts

/-- The blocks of some parts that have a reference below them. -/
def neededBlocks : List (Part (List Fragment)) → Nat
  | [] => 0
  | .code _ _ _ :: parts => neededBlocks parts + (if partReferences parts = 0 then 0 else 1)
  | _ :: parts => neededBlocks parts

/-- What a document of some parts is rendered as, by an eager reading of them. -/
def Document.renderEagerly (sentinel : String) (parts : List (Part (List Fragment))) :
    Except RenderError Rendered :=
  match readEagerly sentinel 1 0 [] parts with
  | .error failure => .error (.request (.block failure))
  | .ok (ls, names) =>
    .ok ⟨Text.unlines ls,
      ⟨partReferences parts, partReferences parts, blockCount parts, neededBlocks parts,
        blockCount parts - neededBlocks parts⟩, names⟩

/-! ## Whole documents -/

/-- The parts of a text that some parts are written as. -/
def writtenParts (parts : List (Part (List Fragment))) : List (Part Text) :=
  parts.map (Part.map written)

section Parts

variable {parts : List (Part (List Fragment))}

theorem partReferences_cons (part : Part (List Fragment)) (parts : List (Part (List Fragment))) :
    partReferences (part :: parts) = lineReferences part.prose + partReferences parts := by
  rw [partReferences, List.flatMap_cons, lineReferences_append]
  rfl

theorem prose_writtenParts (parts : List (Part (List Fragment))) :
    (writtenParts parts).flatMap Part.prose = (parts.flatMap Part.prose).map written := by
  induction parts with
  | nil => rfl
  | cons part parts ih =>
    rw [writtenParts, List.map_cons, List.flatMap_cons, Part.prose_map, List.flatMap_cons,
      List.map_append, ← ih]
    rfl

theorem length_blocksOf (helper : Text) (n index references : Nat)
    (parts : List (Part (List Fragment))) :
    (blocksOf helper n index references (writtenParts parts)).length = blockCount parts := by
  induction parts generalizing n index references with
  | nil => rfl
  | cons part parts ih =>
    cases part with
    | code opening body closing => exact congrArg Nat.succ (ih _ _ _)
    | plain line => exact ih _ _ _
    | listing opening body => exact ih _ _ _

theorem blocksOf_plain (helper : Text) (n index references : Nat) (line : List Fragment) :
    blocksOf helper n index references (writtenParts (.plain line :: parts)) =
      blocksOf helper (n + 1) index (references + referencesOn helper ([line].map written))
        (writtenParts parts) :=
  rfl

theorem blocksOf_listing (helper : Text) (n index references : Nat) (opening : List Fragment)
    (body : List (List Fragment)) :
    blocksOf helper n index references (writtenParts (.listing opening body :: parts)) =
      blocksOf helper (n + (opening :: body).length) index
        (references + referencesOn helper ((opening :: body).map written))
        (writtenParts parts) := by
  simp [writtenParts, blocksOf, Part.map, Part.prose]

/-- Without references nothing is run, and the lines stay as they are. -/
theorem readEagerly_plain (sentinel : String) (names : Namespace) (n index : Nat)
    (hparts : partReferences parts = 0) :
    readEagerly sentinel n index names parts =
        .ok ((parts.flatMap Part.prose).map (fillLine sentinel names), names) ∧
      neededBlocks parts = 0 := by
  induction parts generalizing n index with
  | nil => exact ⟨rfl, rfl⟩
  | cons part parts ih =>
    rw [partReferences_cons, Nat.add_eq_zero_iff] at hparts
    have prose (ls : List (List Fragment)) :
        (readEagerly sentinel (n + ls.length) index names parts).map (fun (ms, names') =>
            (ls.map (fillLine sentinel names) ++ ms, names')) =
          .ok ((ls ++ parts.flatMap Part.prose).map (fillLine sentinel names), names) := by
      rw [(ih (n + ls.length) index hparts.2).1, List.map_append]
      rfl
    have hneeded := (ih n index hparts.2).2
    cases part with
    | code opening body closing =>
      rw [readEagerly, if_pos hparts.2, neededBlocks, if_pos hparts.2]
      exact ⟨(ih (n + body.length + 2) (index + 1) hparts.2).1, hneeded⟩
    | plain line => exact ⟨prose [line], hneeded⟩
    | listing opening body => exact ⟨prose (opening :: body), hneeded⟩

/-- What has become of a session `s` when it has served all references of some parts; `queued` were
the blocks above the parts that had not been run. -/
structure Session.Finished (s : Session) (queued : List Block)
    (parts : List (Part (List Fragment))) (names : Namespace) (t : Session) : Prop where
  names : t.names = names
  counter : t.counter = s.counter + partReferences parts
  executed : t.executed = s.executed + queued.length + neededBlocks parts
  pending : t.pending.length + neededBlocks parts = blockCount parts
  total : t.total = s.total
  expected : t.expected = s.expected

/-- A session that serves the references of some parts does what an eager reading of them did. -/
def Session.Mirrors (s : Session) (queued : List Block) (parts : List (Part (List Fragment))) :
    Except BlockFailure (List Text × Namespace) → Prop
  | .ok (ls, names) =>
    ∃ t, (fillLines (parts.flatMap Part.prose)).run Session.requestText s = (.ok ls, t) ∧
      s.Finished queued parts names t
  | .error failure =>
    ∃ t, (fillLines (parts.flatMap Part.prose)).run Session.requestText s =
      (.error (.unanswered (.block failure)), t)

section Simulation

variable {s : Session} {names : Namespace} {queued : List Block} {n index : Nat}

/-- Lines of prose on top of parts. -/
theorem mirrors_prose {ls : List (List Fragment)} {below : List Block}
    (part : Part (List Fragment)) (hpart : part.prose = ls)
    (hneeded : neededBlocks (part :: parts) = neededBlocks parts)
    (hcount : blockCount (part :: parts) = blockCount parts)
    (hbelow : ∀ b ∈ below, s.counter + lineReferences ls ≤ b.threshold)
    (hlength : below.length = blockCount parts)
    (h : s.At names queued below)
    (hpos : 0 < lineReferences ls + partReferences parts)
    (hrest : 0 < partReferences parts →
      (s.served names queued below (lineReferences ls)).Mirrors
        (Session.left queued (lineReferences ls)) parts
        (readEagerly s.sentinel n index names parts)) :
    s.Mirrors queued (part :: parts) ((readEagerly s.sentinel n index names parts).map
      fun (ms, names') => (ls.map (fillLine s.sentinel names) ++ ms, names')) := by
  have hrun : ∀ r t, (fillLines (parts.flatMap Part.prose)).run Session.requestText
        (s.served names queued below (lineReferences ls)) = (r, t) →
      (fillLines ((part :: parts).flatMap Part.prose)).run Session.requestText s =
        (r.map fun ms => ls.map (fillLine s.sentinel names) ++ ms, t) := by
    intro r t hr
    rw [List.flatMap_cons, hpart, fillLines_append, Dialogue.run_andThen,
      Session.run_fillLines ls h hbelow]
    dsimp only
    rw [Dialogue.run_andThen, hr]
    cases r <;> rfl
  have hreferences : partReferences (part :: parts) = lineReferences ls + partReferences parts := by
    rw [partReferences_cons, hpart]
  have hexecuted := Session.executed_served s names queued below (lineReferences ls)
  by_cases hzero : partReferences parts = 0
  · -- these lines have the last references
    obtain ⟨hread, hnone⟩ := readEagerly_plain s.sentinel names n index hzero
    rw [hzero, Nat.add_zero] at hpos hreferences
    have hne : lineReferences ls ≠ 0 := by omega
    rw [Session.served, if_neg hne] at hrun
    rw [hread]
    refine ⟨_, hrun _ _ (Session.run_fillLines_plain s.sentinel names _ hzero), ?_⟩
    refine ⟨rfl, ?_, ?_, ?_, rfl, rfl⟩
    · rw [hreferences]
    · rw [hneeded, hnone, Nat.add_zero]
    · rw [hneeded, hnone, hcount, ← hlength, Nat.add_zero]
  · have hmirrors := hrest (Nat.pos_of_ne_zero hzero)
    cases hread : readEagerly s.sentinel n index names parts with
    | error failure =>
      rw [hread] at hmirrors
      obtain ⟨t, ht⟩ := hmirrors
      exact ⟨t, hrun _ t ht⟩
    | ok r =>
      obtain ⟨ms, names'⟩ := r
      rw [hread] at hmirrors
      obtain ⟨t, ht, hfinished⟩ := hmirrors
      refine ⟨t, hrun _ t ht, ?_⟩
      refine ⟨hfinished.names, ?_, ?_, ?_, ?_, ?_⟩
      · rw [hfinished.counter, Session.counter_served, hreferences, Nat.add_assoc]
      · rw [hfinished.executed, hexecuted, hneeded]
      · rw [hneeded, hcount]
        exact hfinished.pending
      · rw [hfinished.total, Session.total_served]
      · rw [hfinished.expected, Session.expected_served]

/-- A block on top of parts that have references. -/
theorem mirrors_code {opening closing : Text} {body : List Text}
    (h : s.At names queued
      (blocksOf ['_'] n index s.counter (writtenParts (.code opening body closing :: parts))))
    (hpos : 0 < partReferences parts)
    (hrest : ∀ {names' queued'},
      s.At names' queued' (blocksOf ['_'] (n + body.length + 2) (index + 1) s.counter
        (writtenParts parts)) →
      s.Mirrors queued' parts
        (readEagerly s.sentinel (n + body.length + 2) (index + 1) names' parts)) :
    s.Mirrors queued (.code opening body closing :: parts)
      (let outcome := Script.runSource names (Text.unlines body)
      match outcome.error? with
      | none =>
        readEagerly s.sentinel (n + body.length + 2) (index + 1) outcome.names parts
      | some err => .error ⟨index, n, err⟩) := by
  have hne : partReferences parts ≠ 0 := Nat.ne_of_gt hpos
  -- the session has not come to the block yet, so it joins the queue
  let b : Block := ⟨index, s.counter, n, body⟩
  have hpending : s.pending = (queued ++ [b]) ++ blocksOf ['_'] (n + body.length + 2) (index + 1)
      s.counter (writtenParts parts) := by
    rw [h.pending, List.append_assoc]
    rfl
  have hdue : ∀ c ∈ queued ++ [b], c.threshold ≤ s.counter := by
    intro c hc
    rcases List.mem_append.1 hc with hc | hc
    · exact h.due c hc
    · obtain rfl := List.mem_singleton.1 hc
      exact Nat.le_refl _
  have happend := runBlocks_append [b] h.ok
  rw [h.names] at happend
  dsimp only
  cases herr : (Script.runSource names (Text.unlines body)).error? with
  | none =>
    have hb : (Script.runSource names b.source).error? = none := herr
    rw [runBlocks_cons_ok [] hb] at happend
    have hat : s.At (Script.runSource names (Text.unlines body)).names (queued ++ [b]) _ :=
      ⟨h.aborted, hpending, hdue, by rw [happend]; rfl, by rw [happend]; rfl⟩
    have hmirrors := hrest hat
    dsimp only
    cases hread : readEagerly s.sentinel (n + body.length + 2) (index + 1)
        (Script.runSource names (Text.unlines body)).names parts with
    | error failure =>
      rw [hread] at hmirrors
      exact hmirrors
    | ok r =>
      rw [hread] at hmirrors
      obtain ⟨t, ht, hfinished⟩ := hmirrors
      have hneeded : neededBlocks (.code opening body closing :: parts) =
          neededBlocks parts + 1 := by
        rw [neededBlocks, if_neg hne]
      -- it was counted with the queue, and is now one of the needed blocks
      refine ⟨t, ht, ?_⟩
      refine ⟨hfinished.names, hfinished.counter, ?_, ?_, hfinished.total, hfinished.expected⟩
      · rw [hfinished.executed, hneeded, List.length_append, List.length_singleton]
        omega
      · rw [hneeded, blockCount, ← hfinished.pending, Nat.add_assoc]
  | some err =>
    have hb : (Script.runSource names b.source).error? = some err := herr
    rw [runBlocks_cons_error [] hb] at happend
    -- the failure waits for the first reference below the block
    have hfails : s.FailsAt ⟨index, n, err⟩ (queued ++ [b]) _ :=
      ⟨h.aborted, hpending, hdue, pairwise_blocksOf, by rw [happend]⟩
    exact hfails.run_fillLines hpos

/-- A session serves the references of some parts as an eager reading does. -/
theorem mirrors_readEagerly (hvalid : ∀ l ∈ parts.flatMap Part.prose, ∀ f ∈ l, f.Valid)
    (h : s.At names queued (blocksOf ['_'] n index s.counter (writtenParts parts)))
    (hpos : 0 < partReferences parts) :
    s.Mirrors queued parts (readEagerly s.sentinel n index names parts) := by
  induction parts generalizing s names queued n index with
  | nil => cases hpos
  | cons part parts ih =>
    rw [List.flatMap_cons] at hvalid
    have hvalidRest : ∀ l ∈ parts.flatMap Part.prose, ∀ f ∈ l, f.Valid :=
      fun l hl => hvalid l (List.mem_append_right _ hl)
    rw [partReferences_cons] at hpos
    have prose (ls : List (List Fragment)) (hpart : part.prose = ls)
        (hneeded : neededBlocks (part :: parts) = neededBlocks parts)
        (hcount : blockCount (part :: parts) = blockCount parts)
        (hblocks : blocksOf ['_'] n index s.counter (writtenParts (part :: parts)) =
          blocksOf ['_'] (n + ls.length) index (s.counter + lineReferences ls)
            (writtenParts parts)) :
        s.Mirrors queued (part :: parts)
          ((readEagerly s.sentinel (n + ls.length) index names parts).map
            fun (ms, names') => (ls.map (fillLine s.sentinel names) ++ ms, names')) := by
      rw [hblocks] at h
      rw [hpart] at hpos
      refine mirrors_prose part hpart hneeded hcount (fun b hb => (le_of_mem_blocksOf hb).1)
        (length_blocksOf ..) h hpos fun hrest => ?_
      have hat := h.served (lineReferences ls)
      have hmirrors := ih (s := s.served names queued _ (lineReferences ls)) hvalidRest
        (by rw [Session.counter_served]; exact hat) hrest
      rw [Session.sentinel_served] at hmirrors
      exact hmirrors
    have hwritten : referencesOn ['_'] (part.prose.map written) = lineReferences part.prose :=
      referencesOn_written fun l hl => hvalid l (List.mem_append_left _ hl)
    cases part with
    | plain line =>
      have hline : referencesOn ['_'] ([line].map written) = lineReferences [line] := hwritten
      refine prose [line] rfl rfl rfl ?_
      rw [blocksOf_plain, hline]
      rfl
    | listing opening body =>
      have hlines : referencesOn ['_'] ((opening :: body).map written) =
          lineReferences (opening :: body) := hwritten
      refine prose (opening :: body) rfl rfl rfl ?_
      rw [blocksOf_listing, hlines]
    | code opening body closing =>
      have hpos : 0 < partReferences parts := by
        rw [← Nat.zero_add (partReferences parts)]
        exact hpos
      have hne : partReferences parts ≠ 0 := Nat.ne_of_gt hpos
      rw [readEagerly, if_neg hne]
      exact mirrors_code h hpos fun hat => ih hvalidRest hat hpos

end Simulation

/-- Parts whose prose is such lines are written from parts of fragments. -/
theorem exists_writtenParts {parts : List (Part Text)}
    (h : ∀ l ∈ parts.flatMap Part.prose,
      ∃ fs : List Fragment, (∀ f ∈ fs, f.Valid) ∧ l = written fs) :
    ∃ parts', writtenParts parts' = parts ∧
      ∀ l ∈ parts'.flatMap Part.prose, ∀ f ∈ l, f.Valid := by
  induction parts with
  | nil => exact ⟨[], rfl, by simp⟩
  | cons part parts ih =>
    rw [List.flatMap_cons] at h
    obtain ⟨parts', rfl, hvalid⟩ := ih fun l hl => h l (List.mem_append_right _ hl)
    obtain ⟨ms, hms, hmsValid⟩ := exists_written fun l hl => h l (List.mem_append_left _ hl)
    have hall : ∀ l ∈ ms ++ parts'.flatMap Part.prose, ∀ f ∈ l, f.Valid := by
      intro l hl
      rcases List.mem_append.1 hl with hl | hl
      · exact hmsValid l hl
      · exact hvalid l hl
    cases part with
    | plain line =>
      obtain ⟨fs, rfl, rfl⟩ := List.map_eq_singleton_iff.1 hms
      exact ⟨.plain fs :: parts', rfl, hall⟩
    | listing opening body =>
      obtain ⟨fs, gs, rfl, rfl, rfl⟩ := List.map_eq_cons_iff.1 hms
      exact ⟨.listing fs gs :: parts', rfl, hall⟩
    | code opening body closing =>
      obtain rfl := List.map_eq_nil_iff.1 hms
      exact ⟨.code opening body closing :: parts', rfl, hall⟩

/-- A session that has just begun mirrors an eager reading of its whole document. -/
theorem mirrors_document (hvalid : ∀ l ∈ parts.flatMap Part.prose, ∀ f ∈ l, f.Valid) {s : Session}
    (haborted : s.aborted = false) (hnames : s.names = []) (hcounter : s.counter = 0)
    (hpending : s.pending = blocksOf ['_'] 1 0 0 (writtenParts parts)) :
    s.Mirrors [] parts (readEagerly s.sentinel 1 0 [] parts) := by
  by_cases hzero : partReferences parts = 0
  · obtain ⟨hread, hneeded⟩ := readEagerly_plain s.sentinel [] 1 0 hzero
    rw [hread]
    refine ⟨s, Session.run_fillLines_plain s.sentinel [] s hzero, ?_⟩
    refine ⟨hnames, ?_, ?_, ?_, rfl, rfl⟩
    · rw [hzero, Nat.add_zero]
    · rw [hneeded]
      rfl
    · rw [hneeded, hpending, length_blocksOf, Nat.add_zero]
  · refine mirrors_readEagerly hvalid ?_ (Nat.pos_of_ne_zero hzero)
    refine ⟨haborted, ?_, by simp, rfl, hnames⟩
    rw [hpending, hcounter, List.nil_append]

/-- Rendering a document of some parts goes as an eager reading of them does. -/
theorem render_writtenParts {settings : Settings} (hhelper : settings.helper = "_")
    (hblocks : settings.blocks = .strip)
    (hvalid : ∀ l ∈ parts.flatMap Part.prose, ∀ f ∈ l, f.Valid) {text : Text}
    (hsegment : segment settings.markers text =
      .ok (Segmentation.ofParts ['_'] 1 0 0 (writtenParts parts))) (data : Json) :
    Document.render settings text data = Document.renderEagerly settings.undefined parts := by
  let start := Session.ofSegmentation (Segmentation.ofParts ['_'] 1 0 0 (writtenParts parts))
    settings
  have hbody : Document.body settings text (Segmentation.ofParts ['_'] 1 0 0 (writtenParts parts)) =
      written (joinLines (parts.flatMap Part.prose)) := by
    rw [Document.body, hblocks, written_joinLines, ← prose_writtenParts]
    rfl
  have hmode : (Document.mode settings).request? = some "_" := by
    rw [Document.mode, hhelper]
  have hexpected : start.expected = partReferences parts := by
    show 0 + referencesOn ['_'] ([] ++ (writtenParts parts).flatMap Part.prose) = _
    rw [Nat.zero_add, List.nil_append, prose_writtenParts, referencesOn_written hvalid]
    rfl
  have htotal : start.total = blockCount parts := length_blocksOf ..
  obtain ⟨t, ht, hrender⟩ := Template.render_written (valid_joinLines hvalid) hmode data
  have hmirrors : start.Mirrors [] parts (readEagerly settings.undefined 1 0 [] parts) :=
    mirrors_document hvalid rfl rfl rfl rfl
  rw [Document.render, hsegment]
  dsimp only
  rw [hbody, ht]
  show Document.renderWith settings t data start = _
  rw [Document.renderWith, hrender, fillFragments_joinLines, Dialogue.run_andThen,
    Document.renderEagerly]
  cases hread : readEagerly settings.undefined 1 0 [] parts with
  | error failure =>
    rw [hread] at hmirrors
    obtain ⟨u, hu⟩ := hmirrors
    rw [hu]
  | ok r =>
    obtain ⟨ls, names⟩ := r
    rw [hread] at hmirrors
    obtain ⟨u, hu, hfinished⟩ := hmirrors
    have hreport : u.report = ⟨partReferences parts, partReferences parts, blockCount parts,
        neededBlocks parts, blockCount parts - neededBlocks parts⟩ := by
      have hcounter : u.counter = partReferences parts := by
        rw [hfinished.counter]
        exact Nat.zero_add _
      have hexecuted : u.executed = neededBlocks parts := by
        rw [hfinished.executed]
        exact Nat.zero_add _
      have hpending := hfinished.pending
      rw [Session.report, hcounter, hexecuted, hfinished.expected, hexpected, hfinished.total,
        htotal, Nat.eq_sub_of_add_eq hpending]
    -- the requests are the expected ones, so that also a strict document is shown
    have hconsistent : u.report.consistent = true := by
      rw [hreport]
      exact beq_self_eq_true _
    rw [hu]
    dsimp only [Dialogue.run]
    rw [Document.conclude, hconsistent, Bool.not_true, Bool.and_false,
      if_neg Bool.false_ne_true, hreport, hfinished.names]

/-- A text is written as some parts, with plain text and references in its prose. -/
structure Markers.WrittenAs (m : Markers) (text : Text) (parts : List (Part (List Fragment))) :
    Prop where
  admits : m.Admits (writtenParts parts)
  lines : Text.lines text = (writtenParts parts).flatMap Part.lines
  valid : ∀ l ∈ parts.flatMap Part.prose, ∀ f ∈ l, f.Valid

/-- A document whose prose is plain text and references is written as some parts. It shows what an
eager reading of its parts shows, whatever the data are. -/
theorem render_eager {settings : Settings} (hhelper : settings.helper = "_")
    (hblocks : settings.blocks = .strip) {text : Text} {s : Segmentation}
    (hsegment : segment settings.markers text = .ok s)
    (hprose : ∀ l ∈ s.lines, ∃ fs : List Fragment, (∀ f ∈ fs, f.Valid) ∧ l = written fs)
    (data : Json) :
    (∃ parts, settings.markers.WrittenAs text parts) ∧
      ∀ parts, settings.markers.WrittenAs text parts →
        Document.render settings text data = Document.renderEagerly settings.undefined parts := by
  have hmarker : settings.markers.helper = ['_'] := by
    rw [Settings.markers, hhelper]
    rfl
  obtain ⟨row, hadmits, hlines, rfl⟩ := exists_parts hsegment
  rw [hmarker] at hsegment
  constructor
  · obtain ⟨parts, rfl, hvalid⟩ := exists_writtenParts hprose
    exact ⟨parts, hadmits, hlines, hvalid⟩
  · intro parts hparts
    -- the text is taken apart in one way only
    obtain rfl := hadmits.unique hparts.admits (hlines.symm.trans hparts.lines)
    exact render_writtenParts hhelper hblocks hparts.valid hsegment data

end Parts

/-- The same reference above a block, between two blocks and below them. -/
def twoBlocks : Text :=
  ("x is \x7b\x7b_ \"x\"\x7d\x7d\n```calc\nx = 2\n```\nx is \x7b\x7b_ \"x\"\x7d\x7d\n" ++
    "```calc\nx = x + 1\ny = 2 * x\n```\n" ++
    "y is \x7b\x7b_ \"y\"\x7d\x7d, x is \x7b\x7b_ \"x\"\x7d\x7d").toList

/-- The parts of `twoBlocks`. -/
def twoBlocksParts : List (Part (List Fragment)) :=
  let plain (x : String) : List Fragment := x.toList.map .plain
  let x : Fragment := .reference ['x']
  [.plain (plain "x is " ++ [x]), .code "```calc".toList ["x = 2".toList] "```".toList,
    .plain (plain "x is " ++ [x]),
    .code "```calc".toList ["x = x + 1".toList, "y = 2 * x".toList] "```".toList,
    .plain (plain "y is " ++ [.reference ['y']] ++ plain ", x is " ++ [x])]

/-- Each reference shows the value that its name has where it stands. -/
theorem render_eager_of_two_blocks :
    ∃ s, segment ({ blocks := .strip } : Settings).markers twoBlocks = .ok s ∧
      (∀ l ∈ s.lines, ∃ fs : List Fragment, (∀ f ∈ fs, f.Valid) ∧ l = written fs) ∧
      ({ blocks := .strip } : Settings).markers.WrittenAs twoBlocks twoBlocksParts ∧
      Document.render { blocks := .strip } twoBlocks .null =
        Document.renderEagerly "???" twoBlocksParts ∧
      (Document.render { blocks := .strip } twoBlocks .null).toOption.map Rendered.output =
        some "x is ???\nx is 2\ny is 6, x is 3".toList := by
  have hsegment : segment ({ blocks := .strip } : Settings).markers twoBlocks =
      .ok ⟨[⟨0, 1, 2, ["x = 2".toList]⟩, ⟨1, 2, 6, ["x = x + 1".toList, "y = 2 * x".toList]⟩], 4,
        (twoBlocksParts.flatMap Part.prose).map written⟩ := rfl
  have hvalid : ∀ l ∈ twoBlocksParts.flatMap Part.prose, ∀ f ∈ l, f.Valid := by decide +kernel
  have hprose : ∀ l ∈ (twoBlocksParts.flatMap Part.prose).map written,
      ∃ fs : List Fragment, (∀ f ∈ fs, f.Valid) ∧ l = written fs := by
    intro l hl
    obtain ⟨fs, hfs, rfl⟩ := List.mem_map.1 hl
    exact ⟨fs, hvalid fs hfs, rfl⟩
  have hadmits : ({} : Settings).markers.Admits (writtenParts twoBlocksParts) :=
    .plain rfl rfl (.code rfl (by decide) rfl
      (.plain rfl rfl (.code rfl (by decide) rfl (.plain rfl rfl .nil))))
  have hparts : ({ blocks := .strip } : Settings).markers.WrittenAs twoBlocks twoBlocksParts :=
    ⟨hadmits, rfl, hvalid⟩
  have hrender := (render_eager rfl rfl hsegment hprose .null).2 _ hparts
  refine ⟨_, hsegment, hprose, hparts, hrender, ?_⟩
  rw [hrender]
  decide +kernel

end CalcDoc
