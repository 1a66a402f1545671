import CalcDoc.Proofs.Documents.Fragments
import CalcDoc.Proofs.Documents.Release

/-!
# Sessions at a place in a document

Lines of plain text and references, and what they make of a session that has come to them.

- `fillLine`, `fillLines`: lines with the values of their names, and the questions that they ask.
- `Session.At`: a session at a place in the document. Blocks that no reference has asked for yet are
  queued.
- `Session.run_fillLines`: the first reference of some lines runs the queue, and all are answered
  with what it has left.
- `Session.FailsAt.run_fillLines`: a failure in the queue ends the session at the first reference.
-/

namespace CalcDoc

open Script (Namespace Value)
open Template (Fragment Dialogue fillFragments referenceCount written)

/-- A row of fragments with the values of its names. -/
def fillLine (sentinel : String) (names : Namespace) : List Fragment → Text
  | [] => []
  | .plain c :: fs => c :: fillLine sentinel names fs
  | .reference name :: fs =>
    (Session.answerText sentinel (Table.get? names (String.ofList name))).toList ++
      fillLine sentinel names fs

/-- The references on some lines. -/
def lineReferences : List (List Fragment) → Nat
  | [] => 0
  | l :: ls => referenceCount l + lineReferences ls

/-- Fills lines one after the other. -/
def fillLines : List (List Fragment) → Dialogue (List Text)
  | [] => .done []
  | l :: ls => (fillFragments l).andThen fun t => (fillLines ls).andThen fun ts => .done (t :: ts)

/-- The fragments of lines with line feeds between them. -/
def joinLines : List (List Fragment) → List Fragment
  | [] => []
  | [l] => l
  | l :: m :: ls => l ++ .plain '\n' :: joinLines (m :: ls)

/-! ## Lines of fragments -/

@[simp] theorem lineReferences_nil : lineReferences [] = 0 := rfl

@[simp] theorem lineReferences_cons (l : List Fragment) (ls : List (List Fragment)) :
    lineReferences (l :: ls) = referenceCount l + lineReferences ls := rfl

@[simp] theorem lineReferences_append (ls ms : List (List Fragment)) :
    lineReferences (ls ++ ms) = lineReferences ls + lineReferences ms := by
  induction ls with
  | nil => simp
  | cons l ls ih => simp [ih, Nat.add_assoc]

theorem written_append (fs gs : List Fragment) : written (fs ++ gs) = written fs ++ written gs :=
  List.flatMap_append

theorem written_joinLines (ls : List (List Fragment)) :
    written (joinLines ls) = Text.unlines (ls.map written) := by
  induction ls with
  | nil => rfl
  | cons l ls ih =>
    cases ls with
    | nil => rfl
    | cons m ls =>
      rw [joinLines, written_append]
      show written l ++ '\n' :: written (joinLines (m :: ls)) = _
      rw [ih]
      rfl

theorem fillFragments_append (fs gs : List Fragment) : fillFragments (fs ++ gs) =
    (fillFragments fs).andThen fun t => (fillFragments gs).andThen fun u => .done (t ++ u) := by
  induction fs with
  | nil => exact (Dialogue.andThen_done _).symm
  | cons f fs ih =>
    cases f with
    | plain c =>
      rw [List.cons_append, fillFragments, ih, fillFragments]
      simp [Dialogue.andThen_assoc]
    | reference name =>
      rw [List.cons_append, fillFragments, ih, fillFragments]
      simp [Dialogue.andThen_assoc, Dialogue.andThen]

/-- The lines of a text are filled as the text is. -/
theorem fillFragments_joinLines (ls : List (List Fragment)) : fillFragments (joinLines ls) =
    (fillLines ls).andThen fun ts => .done (Text.unlines ts) := by
  induction ls with
  | nil => rfl
  | cons l ls ih =>
    cases ls with
    | nil => simp [joinLines, fillLines, Dialogue.andThen_assoc, Text.unlines, Text.join]
    | cons m ls =>
      rw [joinLines, fillFragments_append, fillFragments, ih]
      simp only [fillLines, Dialogue.andThen_assoc, Dialogue.done_andThen]
      rfl

theorem fillLines_append (ls ms : List (List Fragment)) : fillLines (ls ++ ms) =
    (fillLines ls).andThen fun ts => (fillLines ms).andThen fun us => .done (ts ++ us) := by
  induction ls with
  | nil => exact (Dialogue.andThen_done _).symm
  | cons l ls ih =>
    rw [List.cons_append, fillLines, ih, fillLines]
    simp [Dialogue.andThen_assoc]

theorem valid_joinLines {ls : List (List Fragment)} (hls : ∀ l ∈ ls, ∀ f ∈ l, f.Valid) :
    ∀ f ∈ joinLines ls, f.Valid := by
  induction ls with
  | nil => simp [joinLines]
  | cons l ls ih =>
    have hl := hls l List.mem_cons_self
    have hrest := ih fun m hm => hls m (List.mem_cons_of_mem _ hm)
    cases ls with
    | nil => exact hl
    | cons m ls =>
      intro f hf
      rcases List.mem_append.1 hf with hf | hf
      · exact hl f hf
      · -- a line feed between two lines is a plain character
        rcases List.mem_cons.1 hf with rfl | hf
        · exact ⟨by decide, by decide, by decide⟩
        · exact hrest f hf

theorem referencesOn_written {ls : List (List Fragment)} (hls : ∀ l ∈ ls, ∀ f ∈ l, f.Valid) :
    referencesOn ['_'] (ls.map written) = lineReferences ls := by
  induction ls with
  | nil => rfl
  | cons l ls ih =>
    rw [List.map_cons, referencesOn_cons, lineReferences_cons,
      Template.countReferences_written (hls l List.mem_cons_self),
      ih fun m hm => hls m (List.mem_cons_of_mem _ hm)]

/-- Lines that are mixes of plain text and references are written from fragments. -/
theorem exists_written {ls : List Text}
    (h : ∀ l ∈ ls, ∃ fs : List Fragment, (∀ f ∈ fs, f.Valid) ∧ l = written fs) :
    ∃ ms : List (List Fragment), ms.map written = ls ∧ ∀ l ∈ ms, ∀ f ∈ l, f.Valid := by
  induction ls with
  | nil => exact ⟨[], rfl, by simp⟩
  | cons l ls ih =>
    obtain ⟨fs, hfs, rfl⟩ := h l List.mem_cons_self
    obtain ⟨ms, rfl, hms⟩ := ih fun m hm => h m (List.mem_cons_of_mem _ hm)
    exact ⟨fs :: ms, rfl, List.forall_mem_cons.2 ⟨hfs, hms⟩⟩

/-! ## A session at a place in a document -/

namespace Session

/-- A session at a place where the eager reading has the names `names`. The blocks above that have
not been run are queued, and running them leads to these names; the blocks below come after them. -/
structure At (s : Session) (names : Namespace) (queued below : List Block) : Prop where
  aborted : s.aborted = false
  pending : s.pending = queued ++ below
  due : ∀ b ∈ queued, b.threshold ≤ s.counter
  ok : (runBlocks s.names queued).failure? = none
  names : (runBlocks s.names queued).names = names

/-- The session after `count` references at the same place. The first of them runs the queue. -/
def served (s : Session) (names : Namespace) (queued below : List Block) (count : Nat) : Session :=
  if count = 0 then s
  else
    { s with
      pending := below, names := names, counter := s.counter + count,
      executed := s.executed + queued.length }

/-- What is still queued after that. -/
def left (queued : List Block) (count : Nat) : List Block :=
  if count = 0 then queued else []

section Places

variable {s : Session} {names : Namespace} {queued below : List Block}

theorem At.served (h : At s names queued below) (count : Nat) :
    At (s.served names queued below count) names (left queued count) below := by
  unfold Session.served left
  split
  · exact h
  · exact ⟨h.aborted, rfl, by simp, rfl, rfl⟩

@[simp] theorem counter_served (s : Session) (names : Namespace) (queued below : List Block)
    (count : Nat) : (s.served names queued below count).counter = s.counter + count := by
  unfold served
  split
  · next h => rw [h, Nat.add_zero]
  · rfl

@[simp] theorem sentinel_served (s : Session) (names : Namespace) (queued below : List Block)
    (count : Nat) : (s.served names queued below count).sentinel = s.sentinel := by
  unfold served
  split <;> rfl

@[simp] theorem total_served (s : Session) (names : Namespace) (queued below : List Block)
    (count : Nat) : (s.served names queued below count).total = s.total := by
  unfold served
  split <;> rfl

@[simp] theorem expected_served (s : Session) (names : Namespace) (queued below : List Block)
    (count : Nat) : (s.served names queued below count).expected = s.expected := by
  unfold served
  split <;> rfl

/-- What has been run and what is queued are the same blocks before and after. -/
theorem executed_served (s : Session) (names : Namespace) (queued below : List Block)
    (count : Nat) : (s.served names queued below count).executed + (left queued count).length =
      s.executed + queued.length := by
  unfold served left
  split <;> rfl

/-- References at one place, served in two steps. -/
theorem served_served (s : Session) (names : Namespace) (queued below : List Block) (j k : Nat) :
    (s.served names queued below j).served names (left queued j) below k =
      s.served names queued below (j + k) := by
  unfold served left
  by_cases hj : j = 0
  · rw [if_pos hj, if_pos hj, hj, Nat.zero_add]
  · rw [if_neg hj, if_neg hj]
    by_cases hk : k = 0
    · rw [if_pos hk, hk, Nat.add_zero, if_neg hj]
    · have hjk : j + k ≠ 0 := by omega
      rw [if_neg hk, if_neg hjk]
      simp [Nat.add_assoc]

/-- A reference is answered with the value that its name has at the place. -/
theorem At.requestText (h : At s names queued below)
    (hbelow : ∀ b ∈ below, s.counter + 1 ≤ b.threshold) (x : String) :
    s.requestText x =
      (.ok (answerText s.sentinel (Table.get? names x)), s.served names queued below 1) := by
  have hrequest := request_append h.aborted h.pending
    (fun b hb => Nat.lt_succ_of_le (h.due b hb)) hbelow x
  have hran := ran_of_ok h.ok
  dsimp only at hrequest
  rw [h.ok, h.names, hran, List.drop_length, List.nil_append] at hrequest
  rw [Session.requestText, hrequest, Session.served, if_neg Nat.one_ne_zero, h.aborted]
  rfl

/-- The references on a line, without a failure. -/
theorem run_fillFragments (fs : List Fragment) (h : At s names queued below)
    (hbelow : ∀ b ∈ below, s.counter + referenceCount fs ≤ b.threshold) :
    (fillFragments fs).run requestText s =
      (.ok (fillLine s.sentinel names fs), s.served names queued below (referenceCount fs)) := by
  induction fs generalizing s queued with
  | nil => rfl
  | cons f fs ih =>
    cases f with
    | plain c =>
      rw [fillFragments, Dialogue.run_andThen, ih h hbelow]
      rfl
    | reference name =>
      rw [referenceCount] at hbelow
      have hanswer := h.requestText (fun b hb => by have := hbelow b hb; omega)
        (String.ofList name)
      -- the queue is empty from here on
      have hrest := ih (h.served 1) (fun b hb => by
        have := hbelow b hb
        rw [counter_served]
        omega)
      rw [fillFragments, Dialogue.run, hanswer]
      dsimp only
      rw [Dialogue.run_andThen, hrest, served_served, referenceCount, Nat.add_comm 1]
      rfl

/-- The references on some lines, without a failure. -/
theorem run_fillLines (ls : List (List Fragment)) (h : At s names queued below)
    (hbelow : ∀ b ∈ below, s.counter + lineReferences ls ≤ b.threshold) :
    (fillLines ls).run requestText s =
      (.ok (ls.map (fillLine s.sentinel names)),
        s.served names queued below (lineReferences ls)) := by
  induction ls generalizing s queued with
  | nil => rfl
  | cons l ls ih =>
    rw [lineReferences_cons] at hbelow
    have hline := run_fillFragments l h (fun b hb => by have := hbelow b hb; omega)
    have hrest := ih (h.served (referenceCount l)) (fun b hb => by
      have := hbelow b hb
      rw [counter_served]
      omega)
    rw [fillLines, Dialogue.run_andThen, hline]
    dsimp only
    rw [Dialogue.run_andThen, hrest, served_served, sentinel_served, lineReferences_cons]
    rfl

theorem run_fillFragments_plain (sentinel : String) (names : Namespace) (s : Session)
    {fs : List Fragment} (hfs : referenceCount fs = 0) :
    (fillFragments fs).run requestText s = (.ok (fillLine sentinel names fs), s) := by
  induction fs with
  | nil => rfl
  | cons f fs ih =>
    cases f with
    | plain c =>
      rw [fillFragments, Dialogue.run_andThen, ih hfs]
      rfl
    | reference name => cases hfs

/-- Lines without references leave every session as it is. -/
theorem run_fillLines_plain (sentinel : String) (names : Namespace) (s : Session)
    {ls : List (List Fragment)} (hls : lineReferences ls = 0) :
    (fillLines ls).run requestText s = (.ok (ls.map (fillLine sentinel names)), s) := by
  induction ls with
  | nil => rfl
  | cons l ls ih =>
    rw [lineReferences_cons, Nat.add_eq_zero_iff] at hls
    rw [fillLines, Dialogue.run_andThen, run_fillFragments_plain sentinel names s hls.1]
    dsimp only
    rw [Dialogue.run_andThen, ih hls.2]
    rfl

/-- A session in which a queued block is going to fail. -/
structure FailsAt (s : Session) (failure : BlockFailure) (queued below : List Block) : Prop where
  aborted : s.aborted = false
  pending : s.pending = queued ++ below
  due : ∀ b ∈ queued, b.threshold ≤ s.counter
  sorted : below.Pairwise (·.threshold ≤ ·.threshold)
  failure : (runBlocks s.names queued).failure? = some failure

section Failures

variable {failure : BlockFailure}

/-- The next reference meets the failure. Blocks behind the failing one may be due with it. -/
theorem FailsAt.requestText (h : FailsAt s failure queued below) (x : String) :
    ∃ t, s.requestText x = (.error (.block failure), t) := by
  -- the blocks below that are due with the queue do not matter, since it fails before them
  have hcut := filter_append_filter h.sorted (s.counter + 1)
  have hpending : s.pending = (queued ++ below.filter (·.threshold < s.counter + 1)) ++
      below.filter (s.counter + 1 ≤ ·.threshold) := by
    rw [List.append_assoc, hcut, h.pending]
  have hdue : ∀ b ∈ queued ++ below.filter (·.threshold < s.counter + 1),
      b.threshold < s.counter + 1 := by
    intro b hb
    rcases List.mem_append.1 hb with hb | hb
    · exact Nat.lt_succ_of_le (h.due b hb)
    · simpa using (List.mem_filter.1 hb).2
  have hrequest := request_append h.aborted hpending hdue
    (fun b hb => by simpa using (List.mem_filter.1 hb).2) x
  rw [runBlocks_append_error _ h.failure] at hrequest
  dsimp only at hrequest
  rw [h.failure] at hrequest
  rw [Session.requestText, hrequest]
  exact ⟨_, rfl⟩

theorem FailsAt.run_fillFragments (h : FailsAt s failure queued below) {fs : List Fragment}
    (hfs : 0 < referenceCount fs) :
    ∃ t, (fillFragments fs).run Session.requestText s =
      (.error (.unanswered (.block failure)), t) := by
  induction fs with
  | nil => cases hfs
  | cons f fs ih =>
    cases f with
    | plain c =>
      obtain ⟨t, ht⟩ := ih hfs
      exact ⟨t, by rw [fillFragments, Dialogue.run_andThen, ht]⟩
    | reference name =>
      obtain ⟨t, ht⟩ := h.requestText (String.ofList name)
      exact ⟨t, by rw [fillFragments, Dialogue.run, ht]⟩

/-- A block that fails makes the first reference below it fail. -/
theorem FailsAt.run_fillLines (h : FailsAt s failure queued below) {ls : List (List Fragment)}
    (hls : 0 < lineReferences ls) :
    ∃ t, (fillLines ls).run Session.requestText s =
      (.error (.unanswered (.block failure)), t) := by
  induction ls with
  | nil => cases hls
  | cons l ls ih =>
    by_cases hl : referenceCount l = 0
    · -- nothing is asked for on this line
      rw [lineReferences_cons, hl, Nat.zero_add] at hls
      obtain ⟨t, ht⟩ := ih hls
      refine ⟨t, ?_⟩
      rw [fillLines, Dialogue.run_andThen, run_fillFragments_plain "" [] s hl]
      dsimp only
      rw [Dialogue.run_andThen, ht]
    · obtain ⟨t, ht⟩ := h.run_fillFragments (Nat.pos_of_ne_zero hl)
      exact ⟨t, by rw [fillLines, Dialogue.run_andThen, ht]⟩

end Failures

end Places

end Session

end CalcDoc
