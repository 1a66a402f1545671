import CalcDoc.Proofs.Documents.Release

/-!
# Blocks that no reference follows

A document whose template asks for as many values as the text has references runs all blocks but
those at its end: a block with all references above it is needed by none of them.

- `threshold_le_references`: no block has more references above it than there are.
- `Session.InOrder.requests_of_answered`: a session whose requests have all been answered has run in
  order.
- `Session.pending_of_answered`: the blocks that wait after as many requests as the text has
  references.
- `getLast?_filter_eq`: the last of these is the last block of all.
-/

namespace CalcDoc

open Script (Value)

/-- The references above a block are among all references of its row of parts. -/
theorem le_references_of_mem_blocksOf {helper : Text} {n index references : Nat}
    {parts : List (Part Text)} {b : Block}
    (hb : b ∈ blocksOf helper n index references parts) :
    b.threshold ≤ references + referencesOn helper (parts.flatMap Part.prose) := by
  induction parts generalizing n index references with
  | nil => cases hb
  | cons part parts ih =>
    rw [List.flatMap_cons, referencesOn_append]
    cases part with
    | code opening body closing =>
      rcases List.mem_cons.1 hb with rfl | hb
      · exact Nat.le_add_right _ _
      · have := ih hb
        omega
    | plain line =>
      have := ih hb
      omega
    | listing opening body =>
      have := ih hb
      omega

/-- No block has more references above it than there are. -/
theorem threshold_le_references {m : Markers} {text : Text} {s : Segmentation}
    (h : segment m text = .ok s) : ∀ b ∈ s.blocks, b.threshold ≤ s.references := by
  obtain ⟨parts, -, -, rfl⟩ := exists_parts h
  exact fun b hb => le_references_of_mem_blocksOf hb

/-- If some blocks of a row have the greatest threshold that there can be, so has the last block,
and it is the last of these. -/
theorem getLast?_filter_eq {bs : List Block} {n : Nat}
    (hsorted : bs.Pairwise (·.threshold ≤ ·.threshold)) (hle : ∀ b ∈ bs, b.threshold ≤ n) :
    (bs.filter (·.threshold == n)).getLast? = bs.getLast?.filter (·.threshold == n) := by
  rcases List.eq_nil_or_concat bs with rfl | ⟨as, b, rfl⟩
  · rfl
  · rw [List.concat_eq_append] at hsorted hle ⊢
    rw [List.filter_append, List.getLast?_concat]
    by_cases hb : b.threshold = n
    · simp [hb, Option.filter_some]
    · -- the last block is below the bound, and so are those above it
      obtain ⟨-, -, habove⟩ := List.pairwise_append.1 hsorted
      have hlast := hle b (List.mem_append_right as (List.mem_singleton_self b))
      have hnone : as.filter (·.threshold == n) = [] := by
        refine List.filter_eq_nil_iff.2 fun a ha => ?_
        have := habove a ha b (List.mem_singleton_self b)
        rw [beq_iff_eq]
        omega
      simp [hnone, hb, Option.filter_some]

namespace Session

section Runs

variable {start s t : Session} {k : Nat}

/-- A request is answered only if the blocks that it needs do not fail. -/
theorem InOrder.request_of_ok (hs : InOrder start k s)
    (hsorted : start.pending.Pairwise (·.threshold ≤ ·.threshold))
    (hrun : (runBlocks [] (start.due k)).failure? = none) {x : String} {v : Option Value}
    (h : s.request x = (.ok v, t)) :
    (runBlocks [] (start.due (k + 1))).failure? = none ∧ InOrder start (k + 1) t := by
  have hcut := filter_append_filter (hsorted.filter (k ≤ ·.threshold)) (k + 1)
  have hdue := due_append start hsorted (Nat.le_succ k)
  rw [← hs.pending] at hcut hdue
  have hanswer := request_append hs.aborted hcut.symm (by simp [hs.counter])
    (by simp [hs.counter]) x
  have hfine : (runBlocks s.names (s.pending.filter (·.threshold < k + 1))).failure? = none := by
    rw [h] at hanswer
    dsimp only at hanswer
    split at hanswer
    · assumption
    · cases hanswer
  have hrun' : (runBlocks [] (start.due (k + 1))).failure? = none := by
    rw [hdue, runBlocks_append _ hrun, ← hs.names]
    exact hfine
  obtain ⟨t', ht, horder⟩ := hs.request hsorted hrun' x
  obtain rfl : t' = t := congrArg Prod.snd (ht.symm.trans h)
  exact ⟨hrun', horder⟩

/-- A session whose requests have all been answered has run in order. -/
theorem InOrder.requests_of_answered (hs : InOrder start k s)
    (hsorted : start.pending.Pairwise (·.threshold ≤ ·.threshold))
    (hrun : (runBlocks [] (start.due k)).failure? = none) {xs : List String}
    (h : ∀ answer ∈ (s.requests xs).1, answer.isOk) :
    InOrder start (k + xs.length) (s.requests xs).2 := by
  induction xs generalizing k s with
  | nil => exact hs
  | cons x xs ih =>
    rw [Session.requests] at h ⊢
    rcases hrequest : s.request x with ⟨answer, t⟩
    rw [hrequest] at h
    obtain ⟨hfirst, hrest⟩ := List.forall_mem_cons.1 h
    cases answer with
    | error e => cases hfirst
    | ok v =>
      obtain ⟨hrun', ht⟩ := hs.request_of_ok hsorted hrun hrequest
      have hend := ih ht hrun' hrest
      rwa [Nat.add_right_comm, Nat.add_assoc] at hend

end Runs

/-- When there have been as many requests as the text has references, and all have been answered,
the blocks that wait are those that all references stand above. -/
theorem pending_of_answered {text : Text} {settings : Settings} {s : Segmentation}
    (h : segment settings.markers text = .ok s) {xs : List String} (hxs : xs.length = s.references)
    (hanswered : ∀ answer ∈ ((ofSegmentation s settings).requests xs).1, answer.isOk) :
    ((ofSegmentation s settings).requests xs).2.pending =
      s.blocks.filter (·.threshold == s.references) := by
  have hstart : ofText? text settings = .ok (ofSegmentation s settings) := by
    rw [ofText?, h]
    rfl
  have hnone : (runBlocks [] ((ofSegmentation s settings).due 0)).failure? = none := by
    rw [due, List.filter_eq_nil_iff.2 fun b _ => by simp]
    rfl
  have horder := (inOrder_zero hstart).requests_of_answered (pairwise_pending hstart).1 hnone
    hanswered
  rw [horder.pending, Nat.zero_add, hxs]
  refine List.filter_congr fun b hb => ?_
  have := threshold_le_references h b hb
  rw [Bool.eq_iff_iff, decide_eq_true_eq, beq_iff_eq]
  omega

end Session

end CalcDoc
