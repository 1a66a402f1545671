import CalcDoc.Proofs.Documents.Release

/-!
# Sessions that a failing block ends

The first block that fails ends its session at the first request that needs it. Until then all
requests are answered, and from then on none is.

- `Script.StopsAt`: where a source stops with an error, and with which names.
- `Session.requests_of_aborted`: a session that has been aborted refuses all requests, and stays as
  it is.
- `Session.requests_accounted`: the blocks that have been run and those that wait are all blocks.
- `Session.requests_above`: the answers above a block that none of the blocks before it stops.
- `Session.requests_stop`: the run of a session to its failing block and beyond.
-/

namespace CalcDoc

open Script (Namespace Value)

namespace Script

/-- A source stops with an error, and leaves the names `ns'`. If it is no program it changes
nothing, and else its statements before the failing one have been run. -/
def StopsAt (ns : Namespace) (source : Text) (err : Error) (ns' : Namespace) : Prop :=
  match Program.ofText source with
  | .error e => e = err ∧ ns' = ns
  | .ok p => ∃ done s rest, p = done ++ s :: rest ∧ Program.run ns done = ⟨ns', none⟩ ∧
      s.action.run ns' = .error err

theorem exists_of_run_error {ns ns' : Namespace} {p : Program} {err : Error}
    (h : Program.run ns p = ⟨ns', some err⟩) :
    ∃ done s rest, p = done ++ s :: rest ∧ Program.run ns done = ⟨ns', none⟩ ∧
      s.action.run ns' = .error err := by
  induction p generalizing ns with
  | nil => cases h
  | cons s p ih =>
    rw [Program.run] at h
    cases hs : s.action.run ns with
    | ok ns₁ =>
      rw [hs] at h
      obtain ⟨done, s', rest, rfl, hdone, hs'⟩ := ih h
      refine ⟨s :: done, s', rest, rfl, ?_, hs'⟩
      rw [Program.run, hs]
      exact hdone
    | error e =>
      rw [hs] at h
      cases h
      exact ⟨[], s, p, rfl, rfl, hs⟩

theorem stopsAt_of_runSource {ns : Namespace} {source : Text} {err : Error}
    (h : (runSource ns source).error? = some err) :
    StopsAt ns source err (runSource ns source).names := by
  unfold StopsAt
  unfold runSource at h ⊢
  cases hp : Program.ofText source with
  | error e =>
    rw [hp] at h
    exact ⟨Option.some.inj h, rfl⟩
  | ok p =>
    rw [hp] at h
    refine exists_of_run_error ?_
    dsimp only at h ⊢
    rw [← h]

end Script

namespace Session

/-! ## Any session -/

/-- A session that has been aborted refuses all requests, and stays as it is. -/
theorem requests_of_aborted {s : Session} (h : s.aborted = true) (xs : List String) :
    s.requests xs = (xs.map fun _ => .error .aborted, s) := by
  induction xs with
  | nil => rfl
  | cons x xs ih =>
    have hrequest : s.request x = (.error .aborted, s) := by rw [request, if_pos h]
    rw [requests, hrequest]
    dsimp only
    rw [ih]
    rfl

theorem requests_append (s : Session) (xs ys : List String) :
    s.requests (xs ++ ys) =
      ((s.requests xs).1 ++ ((s.requests xs).2.requests ys).1,
        ((s.requests xs).2.requests ys).2) := by
  induction xs generalizing s with
  | nil => rfl
  | cons x xs ih =>
    rw [List.cons_append, requests]
    dsimp only
    rw [ih]
    rfl

/-- All `count` blocks of the document have been run or wait. -/
structure Accounted (s : Session) (count : Nat) : Prop where
  total : s.total = count
  blocks : s.executed + s.pending.length = count

theorem release_accounted (s : Session) (bs : List Block) :
    (s.release bs).1.total = s.total ∧
      (s.release bs).1.executed + (s.release bs).1.pending.length = s.executed + bs.length := by
  induction bs generalizing s with
  | nil => exact ⟨rfl, rfl⟩
  | cons b bs ih =>
    rw [release]
    by_cases hb : b.threshold < s.counter
    · rw [if_pos hb, runBlock]
      cases herr : (Script.runSource s.names b.source).error? with
      | none =>
        -- the block is counted, and no longer waits
        obtain ⟨htotal, hblocks⟩ := ih
          { s with
            pending := bs, names := (Script.runSource s.names b.source).names,
            executed := s.executed + 1 }
        refine ⟨htotal, hblocks.trans ?_⟩
        rw [List.length_cons]
        exact Nat.add_right_comm ..
      | some err =>
        refine ⟨rfl, ?_⟩
        rw [List.length_cons]
        exact Nat.add_right_comm ..
    · rw [if_neg hb]
      exact ⟨rfl, rfl⟩

theorem Accounted.request {s : Session} {count : Nat} (h : s.Accounted count) (x : String) :
    (s.request x).2.Accounted count := by
  obtain ⟨htotal, hblocks⟩ := release_accounted { s with counter := s.counter + 1 } s.pending
  unfold Session.request
  split
  · exact h
  · split
    · next hrelease =>
      rw [hrelease] at htotal hblocks
      exact ⟨htotal.trans h.total, hblocks.trans h.blocks⟩
    · next hrelease =>
      rw [hrelease] at htotal hblocks
      exact ⟨htotal.trans h.total, hblocks.trans h.blocks⟩

theorem requests_accounted {s : Session} {count : Nat} (h : s.Accounted count)
    (xs : List String) : (s.requests xs).2.Accounted count := by
  induction xs generalizing s with
  | nil => exact h
  | cons x xs ih => exact ih (h.request x)

/-! ## The failing block -/

section Failing

variable {start s : Session} {above below : List Block} {b : Block} {err : Script.Error}

/-- The requests before the failing block need none but blocks above it. -/
theorem due_threshold (hpending : start.pending = above ++ b :: below)
    (hsorted : start.pending.Pairwise (·.threshold ≤ ·.threshold)) :
    start.due b.threshold = above.filter (·.threshold < b.threshold) ∧
      start.pending.filter (b.threshold ≤ ·.threshold) =
        above.filter (b.threshold ≤ ·.threshold) ++ b :: below := by
  rw [hpending] at hsorted
  obtain ⟨-, hfrom, -⟩ := List.pairwise_append.1 hsorted
  obtain ⟨hb, -⟩ := List.pairwise_cons.1 hfrom
  have hbelow : ∀ c ∈ b :: below, b.threshold ≤ c.threshold :=
    List.forall_mem_cons.2 ⟨Nat.le_refl _, hb⟩
  constructor
  · have hnone : (b :: below).filter (·.threshold < b.threshold) = [] :=
      List.filter_eq_nil_iff.2 fun c hc => by simpa using hbelow c hc
    rw [due, hpending, List.filter_append, hnone, List.append_nil]
  · have hall : (b :: below).filter (b.threshold ≤ ·.threshold) = b :: below :=
      List.filter_eq_self.2 fun c hc => by simpa using hbelow c hc
    rw [hpending, List.filter_append, hall]

/-- The request that needs the failing block. The blocks above it are run first, and those below it
wait on, even if they were due. -/
theorem InOrder.request_failing (hs : InOrder start b.threshold s)
    (hpending : start.pending = above ++ b :: below)
    (hsorted : start.pending.Pairwise (·.threshold ≤ ·.threshold))
    (hfine : (runBlocks [] above).failure? = none)
    (hfail : (Script.runSource (runBlocks [] above).names b.source).error? = some err)
    (x : String) :
    s.request x = (.error (.block ⟨b.index, b.fenceLine, err⟩),
      { s with
        pending := below
        names := (Script.runSource (runBlocks [] above).names b.source).names
        counter := b.threshold + 1, executed := above.length + 1, aborted := true }) := by
  obtain ⟨hdue, hwaiting⟩ := due_threshold hpending hsorted
  rw [hpending] at hsorted
  obtain ⟨hsortedAbove, hfrom, habove⟩ := List.pairwise_append.1 hsorted
  obtain ⟨hb, hsortedBelow⟩ := List.pairwise_cons.1 hfrom
  let waited := above.filter (b.threshold ≤ ·.threshold)
  let late := below.filter (·.threshold < b.threshold + 1)
  have hcut : above.filter (·.threshold < b.threshold) ++ waited = above :=
    filter_append_filter hsortedAbove b.threshold
  have hcutBelow : late ++ below.filter (b.threshold + 1 ≤ ·.threshold) = below :=
    filter_append_filter hsortedBelow (b.threshold + 1)
  -- the blocks above run on from where the earlier requests have come to
  have hbefore : (runBlocks [] (start.due b.threshold)).failure? = none := by
    rw [← hcut] at hfine
    rw [hdue]
    exact failure?_of_append hfine
  have happend := runBlocks_append waited hbefore
  rw [hdue, hcut, ← hdue, ← hs.names] at happend
  rw [happend] at hfine hfail
  dsimp only at hfine hfail
  have hran := ran_of_ok hfine
  have hlength : above.length = s.executed + waited.length := by
    rw [hs.executed, hdue, ← List.length_append, hcut]
  have hrun : runBlocks s.names (waited ++ b :: late) =
      ⟨(Script.runSource (runBlocks s.names waited).names b.source).names, waited.length + 1,
        some ⟨b.index, b.fenceLine, err⟩⟩ := by
    rw [runBlocks_append _ hfine, runBlocks_cons_error _ hfail]
  have hpendingNow : s.pending =
      (waited ++ b :: late) ++ below.filter (b.threshold + 1 ≤ ·.threshold) := by
    rw [hs.pending, hwaiting, List.append_assoc, List.cons_append, hcutBelow]
  have hdueNow : ∀ c ∈ waited ++ b :: late, c.threshold < s.counter + 1 := by
    intro c hc
    rw [hs.counter]
    rcases List.mem_append.1 hc with hc | hc
    · exact Nat.lt_succ_of_le (habove c (List.mem_filter.1 hc).1 b List.mem_cons_self)
    · rcases List.mem_cons.1 hc with rfl | hc
      · exact Nat.lt_succ_self _
      · simpa using (List.mem_filter.1 hc).2
  have hanswer := request_append hs.aborted hpendingNow hdueNow
    (by simp [hs.counter]) x
  have hdrop : (waited ++ b :: late).drop (waited.length + 1) = late := by
    rw [List.drop_length_add_append, List.drop_succ_cons, List.drop_zero]
  rw [hrun] at hanswer
  dsimp only at hanswer
  rw [hanswer, hdrop, hcutBelow, hs.counter, happend, hlength, Nat.add_assoc]
  rfl

/-- The requests above a block need a part of the blocks above it, and are answered if none of these
fails. -/
theorem requests_above {text : Text} {settings : Settings} (h : ofText? text settings = .ok start)
    (hpending : start.pending = above ++ b :: below)
    (hfine : (runBlocks [] above).failure? = none) {xs : List String}
    (hxs : xs.length = b.threshold) :
    (start.requests xs).1 = xs.mapIdx (fun i x =>
        .ok (Table.get? (runBlocks [] (start.due (i + 1))).names x)) ∧
      InOrder start b.threshold (start.requests xs).2 := by
  obtain ⟨hsorted, -⟩ := pairwise_pending h
  have hbefore : (runBlocks [] (start.due xs.length)).failure? = none := by
    have hcut := filter_append_filter
      ((hpending ▸ hsorted).sublist (List.sublist_append_left above _)) b.threshold
    rw [← hcut] at hfine
    rw [hxs, (due_threshold hpending hsorted).1]
    exact failure?_of_append hfine
  have hrequests := (inOrder_zero h).requests hsorted xs (by rw [Nat.zero_add]; exact hbefore)
  simp only [Nat.zero_add] at hrequests
  rw [hxs] at hrequests
  exact hrequests

/-- All blocks of a session that has just begun wait. -/
theorem accounted_of_ofText? {text : Text} {settings : Settings}
    (h : ofText? text settings = .ok start) : start.Accounted start.pending.length := by
  obtain ⟨s, -, rfl⟩ := exists_of_map h
  exact ⟨rfl, Nat.zero_add _⟩

/-- At any time, all blocks of a document have been run or wait. The first block that fails stops
its session for good. The references above it are answered, and the first one below it meets the
failure; then nothing is answered or changed any more. Of the failing block, the statements before
the failing one have been run, and none of the blocks below it. -/
theorem requests_stop {text : Text} {settings : Settings}
    (h : ofText? text settings = .ok start) :
    (∀ zs, let r := (start.requests zs).2.report
      r.executed + r.pending = r.total ∧ r.total = start.pending.length) ∧
    ∀ {j : Nat} {b : Block} {err : Script.Error}, start.pending[j]? = some b →
      (runBlocks [] (start.pending.take j)).failure? = none →
      (Script.runSource (runBlocks [] (start.pending.take j)).names b.source).error? = some err →
      ∀ {xs : List String}, xs.length = b.threshold → ∀ x : String,
      ∃ t : Session,
        (∀ ys, start.requests (xs ++ x :: ys) =
          (xs.mapIdx (fun i x => .ok (Table.get? (runBlocks [] (start.due (i + 1))).names x)) ++
            .error (.block ⟨j, b.fenceLine, err⟩) :: ys.map (fun _ => .error .aborted), t)) ∧
        t.aborted = true ∧ t.counter = b.threshold + 1 ∧ t.executed = j + 1 ∧
        t.pending = start.pending.drop (j + 1) ∧
        Script.StopsAt (runBlocks [] (start.pending.take j)).names b.source err t.names := by
  refine ⟨fun zs => ?_, fun {j b err} hb hfine hfail {xs} hxs x => ?_⟩
  · obtain ⟨htotal, hblocks⟩ := requests_accounted (accounted_of_ofText? h) zs
    exact ⟨hblocks.trans htotal.symm, htotal⟩
  obtain ⟨hj, hget⟩ := List.getElem?_eq_some_iff.1 hb
  have hpending : start.pending = start.pending.take j ++ b :: start.pending.drop (j + 1) := by
    rw [← hget, ← List.drop_eq_getElem_cons hj, List.take_append_drop]
  have hlength : (start.pending.take j).length = j := List.length_take_of_le (Nat.le_of_lt hj)
  obtain ⟨hanswers, horder⟩ := requests_above h hpending hfine hxs
  obtain ⟨t, hfailing, haborted, hcounter, hexecuted, hrest, hnames⟩ : ∃ t,
      (start.requests xs).2.request x = (.error (.block ⟨b.index, b.fenceLine, err⟩), t) ∧
        t.aborted = true ∧ t.counter = b.threshold + 1 ∧
        t.executed = (start.pending.take j).length + 1 ∧ t.pending = start.pending.drop (j + 1) ∧
        t.names = (Script.runSource (runBlocks [] (start.pending.take j)).names b.source).names :=
    ⟨_, horder.request_failing hpending (pairwise_pending h).1 hfine hfail x, rfl, rfl, rfl, rfl,
      rfl⟩
  rw [index_of_getElem? h hb] at hfailing
  rw [hlength] at hexecuted
  refine ⟨t, fun ys => ?_, haborted, hcounter, hexecuted, hrest, ?_⟩
  · rw [requests_append, hanswers, requests, hfailing]
    dsimp only
    rw [requests_of_aborted haborted]
  · rw [hnames]
    exact Script.stopsAt_of_runSource hfail

/-- The second statement of the second block fails, at the second of two references. -/
theorem requests_stop_of_two_blocks :
    ∃ start b err t,
      ofText? ("\x7b\x7b_ \"y\"\x7d\x7d\n```calc\nx = 2\n```\n```calc\ny = x\nz\n```\n" ++
        "```calc\nx = 3\n```\n\x7b\x7b_ \"y\"\x7d\x7d").toList {} = .ok start ∧
      start.pending[1]? = some b ∧
      (runBlocks [] (start.pending.take 1)).failure? = none ∧
      (Script.runSource (runBlocks [] (start.pending.take 1)).names b.source).error? = some err ∧
      ["y"].length = b.threshold ∧
      start.requests ["y", "y", "x"] =
        ([.ok none, .error (.block ⟨1, 5, err⟩), .error .aborted], t) ∧
      t.executed = 2 ∧ t.pending.length = 1 ∧
      (start.requests ["y"]).2.report.executed + (start.requests ["y"]).2.report.pending = 3 := by
  let blocks : List Block :=
    [⟨0, 1, 2, ["x = 2".toList]⟩, ⟨1, 1, 5, ["y = x".toList, "z".toList]⟩,
      ⟨2, 1, 9, ["x = 3".toList]⟩]
  let start : Session := ⟨blocks, [], 0, 0, 3, 2, "???", false⟩
  have hstart : ofText? ("\x7b\x7b_ \"y\"\x7d\x7d\n```calc\nx = 2\n```\n```calc\ny = x\nz\n```\n" ++
      "```calc\nx = 3\n```\n\x7b\x7b_ \"y\"\x7d\x7d").toList {} = .ok start := rfl
  have hfine : (runBlocks [] (start.pending.take 1)).failure? = none := by decide +kernel
  obtain ⟨err, hfail⟩ : ∃ err, (Script.runSource (runBlocks [] (start.pending.take 1)).names
      "y = x\nz".toList).error? = some err := Option.isSome_iff_exists.1 (by decide +kernel)
  have hblock : start.pending[1]? = some ⟨1, 1, 5, ["y = x".toList, "z".toList]⟩ := rfl
  obtain ⟨haccounted, hstops⟩ := requests_stop hstart
  obtain ⟨t, hrun, -, -, hexecuted, hpending, -⟩ :=
    hstops hblock hfine hfail (show ["y"].length = 1 from rfl) "y"
  obtain ⟨hsum, htotal⟩ := haccounted ["y"]
  exact ⟨start, _, err, t, hstart, hblock, hfine, hfail, rfl, hrun ["x"], hexecuted,
    congrArg List.length hpending, hsum.trans htotal⟩

end Failing

end Session

end CalcDoc
