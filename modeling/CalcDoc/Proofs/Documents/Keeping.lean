import CalcDoc.Proofs.Documents.Abort

/-!
# What sessions keep

Requests run the waiting blocks and do nothing else to the names. So a property of values that every
waiting block keeps is kept by all requests, before and after a block has failed; and what holds of
each failure of a block holds of the failures that requests are answered with.

- `Block.Keeps`: what a block keeps, wherever it is run.
- `Session.Keeping`: the names have a property, and all waiting blocks keep it.
- `Keeping.release`, `Keeping.request`, `Keeping.requests`: what is kept by a release, by a request
  and by a row of requests, and what their failures have.
-/

namespace CalcDoc

open Script (Namespace Value)

variable {P : Value → Prop} {F : BlockFailure → Prop}

/-- Run on names whose values have `P`, the block leaves such names, and a failure of it has `F`. -/
def Block.Keeps (P : Value → Prop) (F : BlockFailure → Prop) (b : Block) : Prop :=
  ∀ ns : Namespace, (∀ p ∈ ns, P p.2) →
    (∀ p ∈ (Script.runSource ns b.source).names, P p.2) ∧
      ∀ err, (Script.runSource ns b.source).error? = some err → F ⟨b.index, b.fenceLine, err⟩

namespace Session

/-- The values of all names have `P`, and every waiting block keeps that. -/
structure Keeping (P : Value → Prop) (F : BlockFailure → Prop) (s : Session) : Prop where
  names : ∀ p ∈ s.names, P p.2
  blocks : ∀ b ∈ s.pending, b.Keeps P F

/-- What answers to requests have that keep `F`. -/
def Answered (F : BlockFailure → Prop) (answers : List (Except RequestError (Option Value))) :
    Prop :=
  ∀ f, .error (.block f) ∈ answers → F f

theorem Keeping.release {s : Session} (bs : List Block) (hnames : ∀ p ∈ s.names, P p.2)
    (hblocks : ∀ b ∈ bs, b.Keeps P F) :
    (s.release bs).1.Keeping P F ∧ ∀ f, (s.release bs).2 = some f → F f := by
  induction bs generalizing s with
  | nil => exact ⟨⟨hnames, hblocks⟩, fun f hf => by cases hf⟩
  | cons b bs ih =>
    obtain ⟨hb, hbs⟩ := List.forall_mem_cons.1 hblocks
    rw [Session.release]
    by_cases hdue : b.threshold < s.counter
    · obtain ⟨hafter, hfailure⟩ := hb s.names hnames
      rw [if_pos hdue, runBlock]
      cases herr : (Script.runSource s.names b.source).error? with
      | none => exact ih hafter hbs
      | some err =>
        refine ⟨⟨hafter, hbs⟩, ?_⟩
        rintro _ ⟨⟩
        exact hfailure err herr
    · rw [if_neg hdue]
      exact ⟨⟨hnames, hblocks⟩, fun f hf => by cases hf⟩

theorem Keeping.request {s : Session} (h : s.Keeping P F) (x : String) :
    (s.request x).2.Keeping P F ∧ ∀ f, (s.request x).1 = .error (.block f) → F f := by
  have hrelease :=
    @Keeping.release P F { s with counter := s.counter + 1 } s.pending h.names h.blocks
  unfold Session.request
  split
  · exact ⟨h, fun f hf => by cases hf⟩
  · split
    · next heq =>
      rw [heq] at hrelease
      exact ⟨hrelease.1, fun f hf => by cases hf⟩
    · next failure heq =>
      rw [heq] at hrelease
      refine ⟨hrelease.1, ?_⟩
      rintro _ ⟨⟩
      exact hrelease.2 failure rfl

/-- What holds of a session after any row of requests, and of all failures among their answers. -/
theorem Keeping.requests {s : Session} (h : s.Keeping P F) (xs : List String) :
    (s.requests xs).2.Keeping P F ∧ Answered F (s.requests xs).1 := by
  induction xs generalizing s with
  | nil => exact ⟨h, fun f hf => absurd hf List.not_mem_nil⟩
  | cons x xs ih =>
    obtain ⟨hs, hanswer⟩ := h.request x
    obtain ⟨hrest, hanswers⟩ := ih hs
    refine ⟨hrest, fun f hf => ?_⟩
    rcases List.mem_cons.1 hf with hf | hf
    · exact hanswer f hf.symm
    · exact hanswers f hf

end Session

end CalcDoc
