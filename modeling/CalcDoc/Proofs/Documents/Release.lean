import CalcDoc.Proofs.Documents.References
import CalcDoc.Session

/-!
# Requests and blocks in order

A session runs a block only when a request needs it. As long as no block fails, that is the same as
running the blocks above a reference before the reference is answered.

- `runBlocks`: runs blocks from top to bottom.
- `release_append`: a request runs the waiting blocks that are due, and no others.
- `Session.requests`, `Session.InOrder`: a row of requests, and what holds of a session after it.
- `requests_inOrder`: the answers to all requests, and the session at their end.
-/

namespace CalcDoc

open Script (Namespace Value)

/-! ## Running blocks -/

/-- How far a row of blocks has been run. -/
structure Progress where
  names : Namespace
  /-- The blocks that have been run, with the one that failed. -/
  ran : Nat
  failure? : Option BlockFailure

/-- Runs blocks from top to bottom, up to the first that fails. -/
def runBlocks (names : Namespace) : List Block → Progress
  | [] => ⟨names, 0, none⟩
  | b :: bs =>
    let outcome := Script.runSource names b.source
    match outcome.error? with
    | none =>
      let rest := runBlocks outcome.names bs
      { rest with ran := rest.ran + 1 }
    | some err => ⟨outcome.names, 1, some ⟨b.index, b.fenceLine, err⟩⟩

theorem runBlocks_cons_ok {names : Namespace} {b : Block} (bs : List Block)
    (h : (Script.runSource names b.source).error? = none) :
    runBlocks names (b :: bs) =
      let rest := runBlocks (Script.runSource names b.source).names bs
      { rest with ran := rest.ran + 1 } := by
  rw [runBlocks]
  dsimp only
  rw [h]

theorem runBlocks_cons_error {names : Namespace} {b : Block} (bs : List Block)
    {err : Script.Error} (h : (Script.runSource names b.source).error? = some err) :
    runBlocks names (b :: bs) =
      ⟨(Script.runSource names b.source).names, 1, some ⟨b.index, b.fenceLine, err⟩⟩ := by
  rw [runBlocks]
  dsimp only
  rw [h]

/-- Without a failure all blocks are run. -/
theorem ran_of_ok {names : Namespace} {bs : List Block}
    (h : (runBlocks names bs).failure? = none) : (runBlocks names bs).ran = bs.length := by
  induction bs generalizing names with
  | nil => rfl
  | cons b bs ih =>
    cases hb : (Script.runSource names b.source).error? with
    | none =>
      rw [runBlocks_cons_ok bs hb] at h ⊢
      exact congrArg Nat.succ (ih h)
    | some err =>
      rw [runBlocks_cons_error bs hb] at h
      cases h

/-- Blocks run after others that do not fail. -/
theorem runBlocks_append {names : Namespace} {as : List Block} (bs : List Block)
    (h : (runBlocks names as).failure? = none) :
    runBlocks names (as ++ bs) =
      let rest := runBlocks (runBlocks names as).names bs
      { rest with ran := as.length + rest.ran } := by
  induction as generalizing names with
  | nil => simp [runBlocks]
  | cons a as ih =>
    cases ha : (Script.runSource names a.source).error? with
    | none =>
      rw [runBlocks_cons_ok as ha] at h ⊢
      rw [List.cons_append, runBlocks_cons_ok _ ha, ih h]
      simp [Nat.add_right_comm]
    | some err =>
      rw [runBlocks_cons_error as ha] at h
      cases h

/-- What comes after a block that fails is not run. -/
theorem runBlocks_append_error {names : Namespace} {as : List Block} (bs : List Block)
    {failure : BlockFailure} (h : (runBlocks names as).failure? = some failure) :
    runBlocks names (as ++ bs) = runBlocks names as := by
  induction as generalizing names with
  | nil => cases h
  | cons a as ih =>
    cases ha : (Script.runSource names a.source).error? with
    | none =>
      rw [runBlocks_cons_ok as ha] at h ⊢
      rw [List.cons_append, runBlocks_cons_ok _ ha, ih h]
    | some err => rw [List.cons_append, runBlocks_cons_error _ ha, runBlocks_cons_error _ ha]

/-- If a row of blocks does not fail, neither does its beginning. -/
theorem failure?_of_append {names : Namespace} {as bs : List Block}
    (h : (runBlocks names (as ++ bs)).failure? = none) :
    (runBlocks names as).failure? = none := by
  cases ha : (runBlocks names as).failure? with
  | none => rfl
  | some failure =>
    rw [runBlocks_append_error bs ha, ha] at h
    cases h

namespace Session

/-- What a request does to the blocks: it runs those that are due, up to the first that fails. -/
theorem release_append {s : Session} {due waiting : List Block}
    (hdue : ∀ b ∈ due, b.threshold < s.counter)
    (hwaiting : ∀ b ∈ waiting, s.counter ≤ b.threshold) :
    s.release (due ++ waiting) =
      let p := runBlocks s.names due
      ({ s with
          pending := due.drop p.ran ++ waiting, names := p.names,
          executed := s.executed + p.ran, aborted := s.aborted || p.failure?.isSome },
        p.failure?) := by
  induction due generalizing s with
  | nil =>
    -- nothing is due any more, so the first block that waits ends the release
    cases waiting with
    | nil => simp [release, runBlocks]
    | cons b bs =>
      have hb : ¬ b.threshold < s.counter := Nat.not_lt.2 (hwaiting b List.mem_cons_self)
      simp [release, runBlocks, hb]
  | cons b bs ih =>
    have hb := hdue b List.mem_cons_self
    rw [List.cons_append, release, if_pos hb, runBlock]
    cases herr : (Script.runSource s.names b.source).error? with
    | none =>
      rw [runBlocks_cons_ok bs herr]
      dsimp only
      have hrest := @ih
        { s with
          pending := bs ++ waiting, names := (Script.runSource s.names b.source).names,
          executed := s.executed + 1 }
        (fun c hc => hdue c (List.mem_cons_of_mem _ hc)) hwaiting
      rw [hrest]
      dsimp only
      rw [List.drop_succ_cons, Nat.add_assoc s.executed, Nat.add_comm 1]
    | some err =>
      rw [runBlocks_cons_error bs herr]
      simp

/-- The answer to a request, and the session after it. -/
theorem request_append {s : Session} {due waiting : List Block} (hs : s.aborted = false)
    (hpending : s.pending = due ++ waiting) (hdue : ∀ b ∈ due, b.threshold < s.counter + 1)
    (hwaiting : ∀ b ∈ waiting, s.counter + 1 ≤ b.threshold) (x : String) :
    s.request x =
      let p := runBlocks s.names due
      (match p.failure? with
        | none => .ok (Table.get? p.names x)
        | some failure => .error (.block failure),
        { s with
          pending := due.drop p.ran ++ waiting, names := p.names, counter := s.counter + 1,
          executed := s.executed + p.ran, aborted := p.failure?.isSome }) := by
  have hrelease := @release_append { s with counter := s.counter + 1 } due waiting hdue hwaiting
  rw [← hpending] at hrelease
  rw [request, if_neg (by simp [hs]), hrelease]
  dsimp only
  rw [hs, Bool.false_or]
  cases (runBlocks s.names due).failure? <;> rfl

/-! ## Rows of requests -/

/-- Answers requests one after the other. -/
def requests (s : Session) :
    List String → List (Except RequestError (Option Value)) × Session
  | [] => ([], s)
  | x :: xs =>
    let (answer, s) := s.request x
    let (answers, s) := s.requests xs
    (answer :: answers, s)

/-- Those of the waiting blocks that `k` requests need. -/
def due (s : Session) (k : Nat) : List Block :=
  s.pending.filter (·.threshold < k)

/-- After `k` requests to a session, none of which has failed, exactly the blocks that these need
have been run, each once and from top to bottom. -/
structure InOrder (start : Session) (k : Nat) (s : Session) : Prop where
  counter : s.counter = k
  names : s.names = (runBlocks [] (start.due k)).names
  executed : s.executed = (start.due k).length
  pending : s.pending = start.pending.filter (k ≤ ·.threshold)
  aborted : s.aborted = false

/-- A row of blocks whose thresholds never fall is cut in two by a count. -/
theorem filter_append_filter {bs : List Block} (h : bs.Pairwise (·.threshold ≤ ·.threshold))
    (k : Nat) : bs.filter (·.threshold < k) ++ bs.filter (k ≤ ·.threshold) = bs := by
  induction bs with
  | nil => rfl
  | cons b bs ih =>
    obtain ⟨hb, hbs⟩ := List.pairwise_cons.1 h
    by_cases hk : b.threshold < k
    · have hk' : ¬ k ≤ b.threshold := Nat.not_le.2 hk
      simp [hk, hk', ih hbs]
    · -- all further blocks have at least the threshold of this one
      have hk' : k ≤ b.threshold := Nat.not_lt.1 hk
      have hnone : bs.filter (·.threshold < k) = [] := by
        refine List.filter_eq_nil_iff.2 fun c hc => ?_
        have := hb c hc
        simp only [decide_eq_true_eq]
        omega
      have hall : bs.filter (k ≤ ·.threshold) = bs := by
        refine List.filter_eq_self.2 fun c hc => ?_
        have := hb c hc
        simp only [decide_eq_true_eq]
        omega
      simp [hk, hk', hnone, hall]

section Runs

variable {start s : Session} {k : Nat}

/-- More requests need the same blocks, and then those whose threshold is in between. -/
theorem due_append (start : Session) (hsorted : start.pending.Pairwise (·.threshold ≤ ·.threshold))
    {j k : Nat} (hjk : j ≤ k) : start.due k =
      start.due j ++ (start.pending.filter (j ≤ ·.threshold)).filter (·.threshold < k) := by
  have hbefore : (start.due j).filter (·.threshold < k) = start.due j := by
    refine List.filter_eq_self.2 fun b hb => ?_
    have := (List.mem_filter.1 hb).2
    simp only [decide_eq_true_eq] at this ⊢
    omega
  calc start.due k
      = (start.due j ++ start.pending.filter (j ≤ ·.threshold)).filter (·.threshold < k) := by
        rw [due, due, filter_append_filter hsorted j]
    _ = start.due j ++ (start.pending.filter (j ≤ ·.threshold)).filter (·.threshold < k) := by
        rw [List.filter_append, hbefore]

/-- A request answers with the value that its name has after all blocks that are due. -/
theorem InOrder.request (hs : InOrder start k s)
    (hsorted : start.pending.Pairwise (·.threshold ≤ ·.threshold))
    (hrun : (runBlocks [] (start.due (k + 1))).failure? = none) (x : String) :
    ∃ t, s.request x = (.ok (Table.get? (runBlocks [] (start.due (k + 1))).names x), t) ∧
      InOrder start (k + 1) t := by
  have hcut := filter_append_filter (hsorted.filter (k ≤ ·.threshold)) (k + 1)
  have hdue := due_append start hsorted (Nat.le_succ k)
  rw [← hs.pending] at hcut hdue
  have hbefore := failure?_of_append (hdue ▸ hrun)
  -- the blocks that are due run on from the names that the earlier ones have left
  have happend := runBlocks_append (s.pending.filter (·.threshold < k + 1)) hbefore
  rw [← hdue, ← hs.names] at happend
  rw [happend] at hrun
  have hran := ran_of_ok hrun
  have hanswer := request_append hs.aborted hcut.symm (by simp [hs.counter])
    (by simp [hs.counter]) x
  dsimp only at hrun hran hanswer
  rw [hrun, hran] at hanswer
  refine ⟨_, by rw [hanswer, happend], ⟨?_, ?_, ?_, ?_, rfl⟩⟩
  · show s.counter + 1 = k + 1
    rw [hs.counter]
  · rw [happend]
  · rw [hdue, List.length_append, hs.executed]
  · -- what waits after this request waited before it, and is not due for it
    dsimp only
    rw [List.drop_length, List.nil_append, hs.pending, List.filter_filter]
    refine List.filter_congr fun b _ => ?_
    rw [← Bool.decide_and, decide_eq_decide]
    omega

/-- The answers to a row of requests, and the session after it. -/
theorem InOrder.requests (hs : InOrder start k s)
    (hsorted : start.pending.Pairwise (·.threshold ≤ ·.threshold)) (xs : List String)
    (hrun : (runBlocks [] (start.due (k + xs.length))).failure? = none) :
    (s.requests xs).1 = xs.mapIdx (fun i x =>
        .ok (Table.get? (runBlocks [] (start.due (k + i + 1))).names x)) ∧
      InOrder start (k + xs.length) (s.requests xs).2 := by
  induction xs generalizing k s with
  | nil => exact ⟨rfl, hs⟩
  | cons x xs ih =>
    have hk : k < k + (x :: xs).length := Nat.lt_add_of_pos_right (Nat.succ_pos _)
    have hfirst : (runBlocks [] (start.due (k + 1))).failure? = none := by
      rw [due_append start hsorted (Nat.succ_le_of_lt hk)] at hrun
      exact failure?_of_append hrun
    obtain ⟨t, hanswer, ht⟩ := hs.request hsorted hfirst x
    have hlength : k + (x :: xs).length = k + 1 + xs.length := by
      rw [List.length_cons]
      omega
    rw [hlength] at hrun ⊢
    obtain ⟨hanswers, hend⟩ := ih ht hrun
    rw [Session.requests, hanswer]
    refine ⟨?_, hend⟩
    dsimp only
    rw [hanswers, List.mapIdx_cons]
    simp only [Nat.add_zero, Nat.add_assoc, Nat.add_comm 1]

end Runs

/-- Blocks are in the order of the text when a session begins. -/
theorem pairwise_pending {text : Text} {settings : Settings} {start : Session}
    (h : ofText? text settings = .ok start) :
    start.pending.Pairwise (·.threshold ≤ ·.threshold) ∧
      start.pending.map Block.index = List.range start.pending.length := by
  obtain ⟨s, hs, rfl⟩ := exists_of_map h
  obtain ⟨parts, -, -, rfl⟩ := exists_parts hs
  refine ⟨pairwise_blocksOf, ?_⟩
  rw [List.range_eq_range']
  exact index_blocksOf

/-- The index of a block is its place among the waiting blocks of a session that begins. -/
theorem index_of_getElem? {text : Text} {settings : Settings} {start : Session}
    (h : ofText? text settings = .ok start) {j : Nat} {b : Block}
    (hb : start.pending[j]? = some b) : b.index = j := by
  have hindex := congrArg (·[j]?) (pairwise_pending h).2
  obtain ⟨hj, rfl⟩ := List.getElem?_eq_some_iff.1 hb
  simpa [hj] using hindex

theorem inOrder_zero {text : Text} {settings : Settings} {start : Session}
    (h : ofText? text settings = .ok start) : InOrder start 0 start := by
  obtain ⟨s, -, rfl⟩ := exists_of_map h
  have hdue : (ofSegmentation s settings).due 0 = [] :=
    List.filter_eq_nil_iff.2 fun b _ => by simp
  refine ⟨rfl, ?_, ?_, ?_, rfl⟩
  · rw [hdue]
    rfl
  · rw [hdue]
    rfl
  · exact (List.filter_eq_self.2 fun b _ => by simp).symm

/-- As long as the blocks that a row of requests needs do not fail, each request is answered with
the value that its name has after the blocks above it have been run from top to bottom, and exactly
these blocks have been run at the end. For the references of the text, they are the blocks whose
fences stand above the reference. -/
theorem requests_inOrder {text : Text} {settings : Settings} {start : Session}
    (h : ofText? text settings = .ok start) (xs : List String)
    (hrun : (runBlocks [] (start.due xs.length)).failure? = none) :
    (start.requests xs).1 = xs.mapIdx (fun i x =>
        .ok (Table.get? (runBlocks [] (start.due (i + 1))).names x)) ∧
      InOrder start xs.length (start.requests xs).2 ∧
      start.pending.map Block.index = List.range start.pending.length ∧
      (0 < xs.length → xs.length ≤ start.expected →
        ∃ line, (referenceLines settings.helper.toList start.pending 1
            (Text.lines text))[xs.length - 1]? = some line ∧
          start.due xs.length = start.pending.filter (·.fenceLine < line)) := by
  obtain ⟨hsorted, hindex⟩ := pairwise_pending h
  have hrequests := (inOrder_zero h).requests hsorted xs (by rw [Nat.zero_add]; exact hrun)
  simp only [Nat.zero_add] at hrequests
  refine ⟨hrequests.1, hrequests.2, hindex, fun hpos hle => ?_⟩
  obtain ⟨s, hs, rfl⟩ := exists_of_map h
  exact exists_referenceLine hs hpos hle

/-- A reference below one block, two more below a second, and a block below them all. -/
def threeBlocks : Text :=
  ("```calc\nx = 2\n```\n\x7b\x7b_ \"x\"\x7d\x7d\n```calc\nx = x + 1\ny = x\n```\n" ++
    "\x7b\x7b_ \"x\"\x7d\x7d \x7b\x7b_ \"y\"\x7d\x7d\n```calc\nz = 1\n```").toList

/-- The three references are answered, the last two on line 9, and the last block is never run. -/
theorem requests_inOrder_of_three_blocks :
    ∃ start first second third t, ofText? threeBlocks {} = .ok start ∧
      (runBlocks [] (start.due 3)).failure? = none ∧
      start.requests ["x", "x", "y"] = ([.ok first, .ok second, .ok third], t) ∧
      first.map Value.text = some "2" ∧ second.map Value.text = some "3" ∧
      third.map Value.text = some "3" ∧ t.executed = 2 ∧ t.pending.map Block.index = [2] ∧
      start.due 3 = start.pending.filter (·.fenceLine < 9) := by
  let blocks : List Block :=
    [⟨0, 0, 1, ["x = 2".toList]⟩, ⟨1, 1, 5, ["x = x + 1".toList, "y = x".toList]⟩,
      ⟨2, 3, 10, ["z = 1".toList]⟩]
  have hstart : ofText? threeBlocks {} = .ok ⟨blocks, [], 0, 0, 3, 3, "???", false⟩ := rfl
  have hrun : (runBlocks [] (blocks.filter (·.threshold < 3))).failure? = none := by
    decide +kernel
  obtain ⟨hanswers, hend, -, hlast⟩ := requests_inOrder hstart ["x", "x", "y"] hrun
  obtain ⟨line, hline, hdue⟩ := hlast (by decide) (by decide)
  have hnine : (referenceLines ['_'] blocks 1 (Text.lines threeBlocks))[2]? = some 9 := by
    decide +kernel
  obtain rfl := Option.some.inj (hline.symm.trans hnine)
  refine ⟨_, _, _, _, _, hstart, hrun, Prod.ext hanswers rfl, ?_, ?_, ?_, hend.executed, ?_, hdue⟩
  · decide +kernel
  · decide +kernel
  · decide +kernel
  · rw [hend.pending]
    rfl

end Session

end CalcDoc
