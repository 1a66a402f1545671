import CalcDoc.Document
import CalcDoc.Proofs.Documents.Keeping
import CalcDoc.Proofs.Evaluation.Operators

/-!
# What a check of the blocks foretells

A check reads the blocks of a document and runs none of them. What it finds is what a session of the
document meets: if all blocks are programs, no session fails because one is not; and the first block
that is none fails every session that comes to it, with the failure that the check has reported.

- `checkBlocks_eq_none`, `checkBlocks_eq_some`: what a check says of the blocks.
- `runSource_of_malformed`, `isMalformed_of_runSource`: a block fails in a run for not being a
  program if and only if it is none.
- `checkBlocks_foretells`: a check, and all sessions of the document.
-/

namespace CalcDoc

open Script (Namespace Value)

/-! ## Reading and running one source -/

namespace Script

theorem checkSource_eq_none {source : Text} (h : checkSource source = none) :
    ∃ p, Program.ofText source = .ok p := by
  unfold checkSource at h
  split at h
  · next p hp => exact ⟨p, hp⟩
  · cases h

theorem checkSource_eq_some {source : Text} {err : Error} (h : checkSource source = some err) :
    Program.ofText source = .error err := by
  unfold checkSource at h
  split at h
  · cases h
  · next hp =>
    obtain rfl := Option.some.inj h
    exact hp

/-- A source that is no program fails in every run, for the reason that a check reports. -/
theorem runSource_of_malformed {source : Text} {err : Error}
    (h : Program.ofText source = .error err) (ns : Namespace) :
    runSource ns source = ⟨ns, some err⟩ := by
  rw [runSource, h]

/-- No run of a program fails because its source is none. -/
theorem isMalformed_of_runSource {source : Text} {p : Program}
    (h : Program.ofText source = .ok p) (ns : Namespace) :
    ∀ err, (runSource ns source).error? = some err → err.isMalformed = false := by
  have ops := operations_of_fits (P := fun _ => True) fun _ _ => trivial
  rw [runSource, h]
  exact (ops.run (fun _ _ => trivial) p fun _ _ => trivial).2

end Script

namespace Session

variable {text : Text} {settings : Settings} {start : Session} {failure : BlockFailure}

/-! ## The check -/

theorem checkBlocks_eq_none {s : Session} (h : s.checkBlocks = none) :
    ∀ b ∈ s.pending, ∃ p, Script.Program.ofText b.source = .ok p := by
  intro b hb
  have hcheck := List.findSome?_eq_none_iff.1 h b hb
  exact Script.checkSource_eq_none (Option.map_eq_none_iff.1 hcheck)

/-- A check reports the first of the waiting blocks that is no program. -/
theorem checkBlocks_eq_some {s : Session} (h : s.checkBlocks = some failure) :
    ∃ above b below, s.pending = above ++ b :: below ∧ failure.block = b.index ∧
      failure.line = b.fenceLine ∧ Script.Program.ofText b.source = .error failure.cause ∧
      ∀ c ∈ above, ∃ p, Script.Program.ofText c.source = .ok p := by
  obtain ⟨above, b, below, hpending, hb, habove⟩ := List.findSome?_eq_some_iff.1 h
  obtain ⟨err, herr, rfl⟩ := Option.map_eq_some_iff.1 hb
  refine ⟨above, b, below, hpending, rfl, rfl, Script.checkSource_eq_some herr, fun c hc => ?_⟩
  exact Script.checkSource_eq_none (Option.map_eq_none_iff.1 (habove c hc))

/-! ## Sessions of a document that has been checked -/

/-- A session in which all waiting blocks are programs fails for other reasons only. -/
theorem isMalformed_of_requests {s : Session}
    (h : ∀ b ∈ s.pending, ∃ p, Script.Program.ofText b.source = .ok p) (xs : List String) :
    Answered (fun f => f.cause.isMalformed = false) (s.requests xs).1 := by
  have hkeeping : s.Keeping (fun _ => True) fun f => f.cause.isMalformed = false := by
    refine ⟨fun _ _ => trivial, fun b hb ns _ => ⟨fun _ _ => trivial, ?_⟩⟩
    obtain ⟨p, hp⟩ := h b hb
    exact Script.isMalformed_of_runSource hp ns
  exact (hkeeping.requests xs).2

/-- All failures of a block that is no program are the same. -/
theorem eq_of_requests {s : Session} {b : Block} {err : Script.Error}
    (hb : ∀ c ∈ s.pending, c.index = b.index → c = b)
    (h : Script.Program.ofText b.source = .error err) (xs : List String) :
    Answered (fun f => f.block = b.index → f = ⟨b.index, b.fenceLine, err⟩)
      (s.requests xs).1 := by
  have hkeeping : s.Keeping (fun _ => True)
      fun f => f.block = b.index → f = ⟨b.index, b.fenceLine, err⟩ := by
    refine ⟨fun _ _ => trivial, fun c hc ns _ => ⟨fun _ _ => trivial, fun err' herr hindex => ?_⟩⟩
    obtain rfl := hb c hc hindex
    rw [Script.runSource_of_malformed h ns] at herr
    rw [Option.some.inj herr]
  exact (hkeeping.requests xs).2

/-- The answer to the first request that needs a failing block. -/
theorem getElem?_requests_failing (h : ofText? text settings = .ok start)
    {above below : List Block} {b : Block} {err : Script.Error}
    (hpending : start.pending = above ++ b :: below)
    (hfine : (runBlocks [] above).failure? = none)
    (hfail : (Script.runSource (runBlocks [] above).names b.source).error? = some err)
    {xs : List String} (hxs : b.threshold < xs.length) :
    (start.requests xs).1[b.threshold]? =
      some (.error (.block ⟨b.index, b.fenceLine, err⟩)) := by
  have hlength : (xs.take b.threshold).length = b.threshold :=
    List.length_take_of_le (Nat.le_of_lt hxs)
  obtain ⟨hanswers, horder⟩ := requests_above h hpending hfine hlength
  have hfailing := horder.request_failing hpending (pairwise_pending h).1 hfine hfail
    xs[b.threshold]
  have hcut : xs = xs.take b.threshold ++ xs[b.threshold] :: xs.drop (b.threshold + 1) := by
    rw [← List.drop_eq_getElem_cons hxs, List.take_append_drop]
  have hanswered : (start.requests (xs.take b.threshold)).1.length = b.threshold := by
    rw [hanswers, List.length_mapIdx, hlength]
  rw [hcut, requests_append, requests, hfailing]
  dsimp only
  rw [List.getElem?_append_right (Nat.le_of_eq hanswered), hanswered, Nat.sub_self]
  rfl

/-- A check of a document foretells what all its sessions meet. If the text has no segmentation, it
is not rendered either, for the same reason. If all blocks are programs, no request fails because
one is not. And else the check reports the first block that is none: the first request that needs
this block is answered with the reported failure, unless a block above it has failed, and no session
ever fails at this block in another way. -/
theorem checkBlocks_foretells (text : Text) (settings : Settings) :
    (∀ e, segment settings.markers text = .error e →
      ∀ data, Document.render settings text data = .error (.fence e)) ∧
    ∀ start, ofText? text settings = .ok start →
      (start.checkBlocks = none → ∀ xs f,
        .error (.block f) ∈ (start.requests xs).1 → f.cause.isMalformed = false) ∧
      ∀ failure, start.checkBlocks = some failure →
        ∃ b, start.pending[failure.block]? = some b ∧ b.fenceLine = failure.line ∧
          Script.Program.ofText b.source = .error failure.cause ∧
          (∀ c ∈ start.pending.take failure.block, ∃ p, Script.Program.ofText c.source = .ok p) ∧
          ∀ xs,
            ((runBlocks [] (start.pending.take failure.block)).failure? = none →
              b.threshold < xs.length →
              (start.requests xs).1[b.threshold]? = some (.error (.block failure))) ∧
            ∀ f, .error (.block f) ∈ (start.requests xs).1 → f.block = failure.block →
              f = failure := by
  refine ⟨fun e he data => by rw [Document.render, he], fun start h => ⟨fun hnone xs => ?_, ?_⟩⟩
  · exact isMalformed_of_requests (checkBlocks_eq_none hnone) xs
  · rintro ⟨j, line, err⟩ hsome
    obtain ⟨above, b, below, hpending, rfl, rfl, herr, habove⟩ := checkBlocks_eq_some hsome
    -- the block stands at the place that its index says
    have hplace : start.pending[above.length]? = some b := by simp [hpending]
    have hindex := index_of_getElem? h hplace
    have htake : start.pending.take above.length = above := by simp [hpending]
    have hself : ∀ c ∈ start.pending, c.index = b.index → c = b := by
      intro c hc hsame
      obtain ⟨i, hi⟩ := List.mem_iff_getElem?.1 hc
      rw [← index_of_getElem? h hi, hsame, hindex, hplace] at hi
      exact (Option.some.inj hi).symm
    dsimp only
    rw [hindex, htake]
    refine ⟨b, hplace, rfl, herr, habove, fun xs => ⟨fun hfine hxs => ?_, ?_⟩⟩
    · rw [← hindex]
      have hrun := Script.runSource_of_malformed herr (runBlocks [] above).names
      exact getElem?_requests_failing h hpending hfine (by rw [hrun]) hxs
    · rw [← hindex]
      exact eq_of_requests hself herr xs

/-- A block that is never closed stops the rendering. Of two closed blocks, the second is no
program: the check reports it, and so does the second request, which is the first below it. -/
theorem checkBlocks_foretells_of_two_blocks :
    (∀ data, Document.render {} "```calc\nx = 2".toList data = .error (.fence (.unterminated 1))) ∧
    ∃ start failure b,
      ofText? ("```calc\nx = 2\n```\n\x7b\x7b_ \"x\"\x7d\x7d\n```calc\ny = (1 +\n```\n" ++
        "\x7b\x7b_ \"y\"\x7d\x7d").toList {} = .ok start ∧
      start.checkBlocks = some failure ∧ start.pending[failure.block]? = some b ∧
      b.threshold = 1 ∧ (start.requests ["x", "y"]).1[1]? = some (.error (.block failure)) := by
  let blocks : List Block :=
    [⟨0, 0, 1, ["x = 2".toList]⟩, ⟨1, 1, 5, ["y = (1 +".toList]⟩]
  let start : Session := ⟨blocks, [], 0, 0, 2, 2, "???", false⟩
  have hstart : ofText?
      ("```calc\nx = 2\n```\n\x7b\x7b_ \"x\"\x7d\x7d\n```calc\ny = (1 +\n```\n" ++
        "\x7b\x7b_ \"y\"\x7d\x7d").toList {} = .ok start := rfl
  obtain ⟨failure, hfailure⟩ : ∃ failure, start.checkBlocks = some failure :=
    Option.isSome_iff_exists.1 (by decide +kernel)
  have hblock : (start.checkBlocks.map BlockFailure.block) = some 1 := by decide +kernel
  rw [hfailure] at hblock
  have hplace : failure.block = 1 := Option.some.inj hblock
  obtain ⟨b, hb, -, -, -, hmeets⟩ :=
    ((checkBlocks_foretells _ _).2 start hstart).2 failure hfailure
  rw [hplace] at hb hmeets
  have hthreshold : b.threshold = 1 := by
    rw [← Option.some.inj hb]
  have hfine : (runBlocks [] (start.pending.take 1)).failure? = none := by decide +kernel
  have hanswer := (hmeets ["x", "y"]).1 hfine (hthreshold ▸ (by decide : 1 < ["x", "y"].length))
  rw [hthreshold] at hanswer
  exact ⟨(checkBlocks_foretells _ _).1 _ rfl, start, failure, b, hstart, hfailure, hplace ▸ hb,
    hthreshold, hanswer⟩

end Session

end CalcDoc
