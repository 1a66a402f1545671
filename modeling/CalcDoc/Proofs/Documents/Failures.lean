import CalcDoc.Proofs.Documents.Abort
import CalcDoc.Proofs.Documents.Counting

/-!
# Which error a document is refused with

Once it is segmented, a document can fail in three ways: a block fails at a request, the template is
at fault, or there are other than the expected requests. The template only learns the message of a
failing block, so the failure itself is kept beside the run. It is the error of the document,
because a run ends with the first request that is refused, and that one is never refused for an
earlier failure.

- `Template.Dialogue.questions`, `Template.Dialogue.refusal?`: what a run asks for, and how it was
  refused.
- `Session.outlook`: how the waiting blocks are going to fail. A request that is answered leaves it
  as it is, and one that is refused meets it.
- `Session.requests_questions`: the answers to all questions of a run.
- `Session.Shared`, `Session.run_shared`: a session with the error that it has kept, and what it
  keeps of a run.
- `Document.render_errors`: the error of a document, from the answers to its requests.
-/

namespace CalcDoc

open Template (Dialogue)

/-! ## Questions of a run -/

namespace Template.Dialogue

variable {α σ ε : Type}

/-- The names that a dialogue asks for, in their order. The last of them may be refused. -/
def questions (answer : σ → String → Except ε String × σ) : Dialogue α → σ → List String
  | .done _, _ => []
  | .fault _, _ => []
  | .ask x next, s =>
    match answer s x with
    | (.ok text, s) => x :: questions answer (next text) s
    | (.error _, _) => [x]

/-- The error of the question that a run was ended by. -/
def refusal? : Except (Failure ε) α → Option ε
  | .error (.unanswered e) => some e
  | _ => none

end Template.Dialogue

namespace Session

variable {α : Type} {s t : Session}

/-! ## What a request meets -/

/-- The failure of the first waiting block that will fail, if all of them are run from here. -/
def outlook (s : Session) : Option BlockFailure :=
  (runBlocks s.names s.pending).failure?

/-- Running the blocks that are due meets the outlook, or leaves it for the blocks that wait on. -/
theorem release_outlook (s : Session) (bs : List Block) :
    (s.release bs).2.or (s.release bs).1.outlook = (runBlocks s.names bs).failure? ∧
      (s.release bs).1.aborted = (s.aborted || (s.release bs).2.isSome) := by
  induction bs generalizing s with
  | nil => exact ⟨rfl, (Bool.or_false _).symm⟩
  | cons b bs ih =>
    rw [release]
    by_cases hdue : b.threshold < s.counter
    · rw [if_pos hdue, runBlock]
      cases herr : (Script.runSource s.names b.source).error? with
      | none =>
        rw [runBlocks_cons_ok bs herr]
        exact ih { s with
          pending := bs, names := (Script.runSource s.names b.source).names,
          executed := s.executed + 1 }
      | some err =>
        rw [runBlocks_cons_error bs herr]
        exact ⟨rfl, (Bool.or_true _).symm⟩
    · rw [if_neg hdue]
      exact ⟨rfl, (Bool.or_false _).symm⟩

/-- As long as no block has failed, a request is answered and leaves the outlook as it is, or meets
it. -/
theorem request_cases (hs : s.aborted = false) (x : String) :
    (∃ v t, s.request x = (.ok v, t) ∧ t.aborted = false ∧ t.outlook = s.outlook) ∨
      ∃ f t, s.request x = (.error (.block f), t) ∧ s.outlook = some f := by
  have hrunning : ¬s.aborted = true := by simp [hs]
  -- counting the request changes neither the names nor the blocks that wait
  obtain ⟨houtlook, haborted⟩ :=
    release_outlook { s with counter := s.counter + 1 } s.pending
  rcases hrelease : ({ s with counter := s.counter + 1 } : Session).release s.pending with ⟨t, f?⟩
  rw [hrelease] at houtlook haborted
  rw [request, if_neg hrunning, hrelease]
  cases f? with
  | none => exact .inl ⟨_, t, rfl, haborted.trans (by rw [hs]; rfl), houtlook⟩
  | some f => exact .inr ⟨f, t, rfl, houtlook.symm⟩

theorem requestText_ok {x : String} {v : Option Script.Value} (h : s.request x = (.ok v, t)) :
    s.requestText x = (.ok (answerText s.sentinel v), t) := by
  rw [requestText, h]
  rfl

theorem requestText_error {x : String} {e : RequestError} (h : s.request x = (.error e, t)) :
    s.requestText x = (.error e, t) := by
  rw [requestText, h]
  rfl

/-! ## Runs -/

/-- The questions of a run are answered with values, and the last one with the refusal that ended
the run, if any did. -/
theorem requests_questions (d : Dialogue α) (s : Session) :
    ∃ values : List (Option Script.Value),
      s.requests (d.questions requestText s) =
        (values.map .ok ++ (Dialogue.refusal? (d.run requestText s).1).toList.map .error,
          (d.run requestText s).2) := by
  induction d generalizing s with
  | done a => exact ⟨[], rfl⟩
  | fault f => exact ⟨[], rfl⟩
  | ask x next ih =>
    rcases hrequest : s.request x with ⟨answer, t⟩
    rw [Dialogue.questions, Dialogue.run]
    cases answer with
    | ok v =>
      obtain ⟨values, hvalues⟩ := ih (answerText s.sentinel v) t
      rw [requestText_ok hrequest]
      refine ⟨v :: values, ?_⟩
      dsimp only
      rw [requests, hrequest]
      dsimp only
      rw [hvalues]
      rfl
    | error e =>
      -- the run ends here, so this is its only question
      rw [requestText_error hrequest]
      refine ⟨[], ?_⟩
      dsimp only
      rw [requests, hrequest]
      rfl

/-- A run without refusal is counted question by question. -/
theorem counter_of_questions {d : Dialogue α} {a : α} (h : d.run requestText s = (.ok a, t)) :
    t.counter = s.counter + (d.questions requestText s).length ∧ t.expected = s.expected := by
  induction d generalizing s with
  | done b =>
    cases h
    exact ⟨rfl, rfl⟩
  | fault f => cases h
  | ask x next ih =>
    rcases htext : s.requestText x with ⟨answer, u⟩
    rw [Dialogue.run, htext] at h
    rw [Dialogue.questions, htext]
    cases answer with
    | ok text =>
      obtain ⟨hcounter, hexpected⟩ := counter_of_requestText htext
      obtain ⟨hcounter', hexpected'⟩ := ih text h
      refine ⟨?_, hexpected'.trans hexpected⟩
      rw [hcounter', hcounter, List.length_cons]
      omega
    | error e => cases h

/-- A run that starts before any block has failed is refused for the failure that it runs into. -/
theorem outlook_of_refusal {d : Dialogue α} (hs : s.aborted = false) {e : RequestError}
    (h : Dialogue.refusal? (d.run requestText s).1 = some e) :
    ∃ f, e = .block f ∧ s.outlook = some f := by
  induction d generalizing s with
  | done a => cases h
  | fault f => cases h
  | ask x next ih =>
    rw [Dialogue.run] at h
    rcases request_cases hs x with ⟨v, t, hrequest, ht, houtlook⟩ | ⟨f, t, hrequest, houtlook⟩
    · rw [requestText_ok hrequest] at h
      rw [← houtlook]
      exact ih _ ht h
    · rw [requestText_error hrequest] at h
      cases h
      exact ⟨f, rfl, houtlook⟩

/-- The errors among the answers are the one that the run is refused with. -/
theorem error_mem_requests_questions {d : Dialogue α} {e : RequestError} :
    .error e ∈ (s.requests (d.questions requestText s)).1 ↔
      Dialogue.refusal? (d.run requestText s).1 = some e := by
  obtain ⟨values, hvalues⟩ := requests_questions d s
  rw [hvalues]
  constructor
  · intro h
    rcases List.mem_append.1 h with h | h
    · obtain ⟨v, -, hv⟩ := List.mem_map.1 h
      cases hv
    · obtain ⟨e', he', heq⟩ := List.mem_map.1 h
      cases heq
      exact Option.mem_toList.1 he'
  · intro h
    exact List.mem_append_right _ (List.mem_map_of_mem (Option.mem_toList.2 h))

/-! ## Shared sessions -/

/-- A session that the helper of a template shares with whoever renders it, and the error of the
last request that it has refused. -/
structure Shared where
  session : Session
  failure? : Option RequestError

/-- The answer of a shared session. The template learns no more of an error than its message. -/
def Shared.answer (s : Shared) (x : String) : Except String String × Shared :=
  match s.session.requestText x with
  | (.ok text, t) => (.ok text, { s with session := t })
  | (.error e, t) => (.error e.message, ⟨t, some e⟩)

/-- What a template comes to that only learns messages. -/
def told : Except (Dialogue.Failure RequestError) α → Except (Dialogue.Failure String) α
  | .ok a => .ok a
  | .error (.unanswered e) => .error (.unanswered e.message)
  | .error (.fault f) => .error (.fault f)

/-- A run keeps the error that it is refused with, and no other. -/
theorem run_shared (d : Dialogue α) (s : Session) :
    d.run Shared.answer ⟨s, none⟩ =
      (told (d.run requestText s).1,
        ⟨(d.run requestText s).2, Dialogue.refusal? (d.run requestText s).1⟩) := by
  induction d generalizing s with
  | done a => rfl
  | fault f => rfl
  | ask x next ih =>
    rcases htext : s.requestText x with ⟨answer, t⟩
    rw [Dialogue.run, Dialogue.run, Shared.answer, htext]
    cases answer with
    | ok text => exact ih text t
    | error e => rfl

end Session

/-! ## Whole documents -/

namespace Document

variable {settings : Settings} {text : Text} {s : Segmentation} {t : Template} {data : Json}

/-- The requests that a document makes while it is rendered. Without well-formed tags it makes
none. -/
def calls (settings : Settings) (text : Text) (s : Segmentation) (data : Json) : List String :=
  match Template.ofText? (body settings text s) with
  | some t =>
    (t.render (mode settings) data).questions Session.requestText
      (Session.ofSegmentation s settings)
  | none => []

/-- Renders a template with a shared session. The error that the session has kept comes before
whatever the template has come to; a message without an error beside it would be no error of a
document. -/
def renderShared (settings : Settings) (t : Template) (data : Json) (start : Session) :
    Option (Except RenderError Rendered) :=
  let (result, shared) := (t.render (mode settings) data).run Session.Shared.answer ⟨start, none⟩
  match shared.failure?, result with
  | some e, _ => some (.error (.request e))
  | none, .ok output => some (conclude settings output shared.session)
  | none, .error (.fault f) => some (.error (.fault f))
  | none, .error (.unanswered _) => none

/-- No message comes without its error, and the error that has been kept is the one that the run is
refused with. -/
theorem renderShared_eq (settings : Settings) (t : Template) (data : Json) (start : Session) :
    renderShared settings t data start = some (renderWith settings t data start) := by
  rw [renderShared, renderWith, Session.run_shared]
  rcases (t.render (mode settings) data).run Session.requestText start with ⟨result, u⟩
  cases result with
  | ok output => rfl
  | error failure => cases failure <;> rfl

theorem conclude_ne_request {output : Text} {u : Session} {e : RequestError} :
    conclude settings output u ≠ .error (.request e) := by
  intro h
  rw [conclude] at h
  split at h <;> cases h

theorem renderWith_eq_request {start : Session} {e : RequestError} :
    renderWith settings t data start = .error (.request e) ↔
      Dialogue.refusal? ((t.render (mode settings) data).run Session.requestText start).1 =
        some e := by
  rw [renderWith]
  rcases (t.render (mode settings) data).run Session.requestText start with ⟨result, u⟩
  cases result with
  | ok output =>
    constructor
    · intro h
      exact absurd h conclude_ne_request
    · intro h
      cases h
  | error failure =>
    cases failure with
    | unanswered e' =>
      constructor
      · rintro ⟨⟩
        rfl
      · rintro ⟨⟩
        rfl
    | fault f =>
      constructor
      · intro h
        cases h
      · intro h
        cases h

theorem conclude_eq_mismatch {output : Text} {u : Session} {expected actual : Nat} :
    conclude settings output u = .error (.mismatch expected actual) ↔
      settings.strictReferences = true ∧ u.counter ≠ u.expected ∧ expected = u.expected ∧
        actual = u.counter := by
  have hconsistent : u.report.consistent = false ↔ u.counter ≠ u.expected := beq_eq_false_iff_ne
  rw [conclude]
  split
  · next h =>
    rw [Bool.and_eq_true, Bool.not_eq_true', hconsistent] at h
    constructor
    · rintro ⟨⟩
      exact ⟨h.1, h.2, rfl, rfl⟩
    · rintro ⟨-, -, rfl, rfl⟩
      rfl
  · next h =>
    rw [Bool.and_eq_true, Bool.not_eq_true', hconsistent] at h
    constructor
    · intro hok
      cases hok
    · rintro ⟨hstrict, hne, -⟩
      exact absurd ⟨hstrict, hne⟩ h

/-- Only a template that has been rendered is refused for a mismatch, with its own two counts. -/
theorem renderWith_eq_mismatch {start : Session} {expected actual : Nat} :
    renderWith settings t data start = .error (.mismatch expected actual) ↔
      settings.strictReferences = true ∧
        (∃ output u, (t.render (mode settings) data).run Session.requestText start =
          (.ok output, u)) ∧
        let made := start.counter +
          ((t.render (mode settings) data).questions Session.requestText start).length
        made ≠ start.expected ∧ expected = start.expected ∧ actual = made := by
  rcases hrun : (t.render (mode settings) data).run Session.requestText start with ⟨result, u⟩
  rw [renderWith, hrun]
  cases result with
  | ok output =>
    obtain ⟨hcounter, hexpected⟩ := Session.counter_of_questions hrun
    dsimp only
    rw [conclude_eq_mismatch, hcounter, hexpected]
    constructor
    · rintro ⟨hstrict, hcounts⟩
      exact ⟨hstrict, ⟨output, u, rfl⟩, hcounts⟩
    · rintro ⟨hstrict, -, hcounts⟩
      exact ⟨hstrict, hcounts⟩
  | error failure =>
    constructor
    · intro h
      cases failure <;> cases h
    · rintro ⟨-, ⟨output, v, hok⟩, -⟩
      cases hok

/-! ### From the text -/

theorem calls_eq_questions (htemplate : Template.ofText? (body settings text s) = some t) :
    calls settings text s data =
      (t.render (mode settings) data).questions Session.requestText
        (Session.ofSegmentation s settings) := by
  rw [calls, htemplate]

theorem calls_eq_nil (htemplate : Template.ofText? (body settings text s) = none) :
    calls settings text s data = [] := by
  rw [calls, htemplate]

/-- A document is refused for a request if and only if the request was answered with that error. -/
theorem render_eq_request (hsegment : segment settings.markers text = .ok s) {e : RequestError} :
    render settings text data = .error (.request e) ↔
      .error e ∈ ((Session.ofSegmentation s settings).requests (calls settings text s data)).1 := by
  cases htemplate : Template.ofText? (body settings text s) with
  | none =>
    rw [render_eq_malformed hsegment htemplate, calls_eq_nil htemplate]
    constructor
    · intro h
      cases h
    · intro h
      cases h
  | some t =>
    rw [render_eq_renderWith hsegment htemplate, calls_eq_questions htemplate,
      renderWith_eq_request, Session.error_mem_requests_questions]

/-- A request of a document is refused only for the first of its blocks that fails. -/
theorem failure?_of_render (hsegment : segment settings.markers text = .ok s) {e : RequestError}
    (h : render settings text data = .error (.request e)) :
    ∃ f, e = .block f ∧ (runBlocks [] s.blocks).failure? = some f := by
  cases htemplate : Template.ofText? (body settings text s) with
  | none =>
    rw [render_eq_malformed hsegment htemplate] at h
    cases h
  | some t =>
    rw [render_eq_renderWith hsegment htemplate, renderWith_eq_request] at h
    exact Session.outlook_of_refusal (s := Session.ofSegmentation s settings) rfl h

theorem render_eq_mismatch (hsegment : segment settings.markers text = .ok s)
    {expected actual : Nat} :
    render settings text data = .error (.mismatch expected actual) ↔
      settings.strictReferences = true ∧
        (∃ t output u, Template.ofText? (body settings text s) = some t ∧
          (t.render (mode settings) data).run Session.requestText
            (Session.ofSegmentation s settings) = (.ok output, u)) ∧
        (calls settings text s data).length ≠ s.references ∧ expected = s.references ∧
        actual = (calls settings text s data).length := by
  cases htemplate : Template.ofText? (body settings text s) with
  | none =>
    rw [render_eq_malformed hsegment htemplate]
    constructor
    · intro h
      cases h
    · rintro ⟨-, ⟨t, output, u, ⟨⟩, -⟩, -⟩
  | some t =>
    have hcount : (Session.ofSegmentation s settings).counter +
        (calls settings text s data).length = (calls settings text s data).length :=
      Nat.zero_add _
    rw [render_eq_renderWith hsegment htemplate, renderWith_eq_mismatch,
      ← calls_eq_questions htemplate]
    dsimp only
    rw [hcount]
    constructor
    · rintro ⟨hstrict, ⟨output, u, hrun⟩, hcounts⟩
      exact ⟨hstrict, ⟨t, output, u, rfl, hrun⟩, hcounts⟩
    · rintro ⟨hstrict, ⟨t', output, u, ⟨⟩, hrun⟩, hcounts⟩
      exact ⟨hstrict, ⟨output, u, hrun⟩, hcounts⟩

/-- Which error a document is refused with. If one of its requests makes a block fail, it is that
failure, of the first of its blocks that fails; and it is never that the session had been aborted
before. It is a mismatch of the counts only if the template has been rendered without any error. All
this is so although the template only learns the messages of failures. -/
theorem render_errors (settings : Settings) (text : Text) (data : Json) :
    render settings text data ≠ .error (.request .aborted) ∧
    ∀ s, segment settings.markers text = .ok s →
      let start := Session.ofSegmentation s settings
      let requests := calls settings text s data
      (∀ f, .error (.block f) ∈ (start.requests requests).1 ↔
        render settings text data = .error (.request (.block f))) ∧
      (∀ f, .error (.block f) ∈ (start.requests requests).1 →
        (runBlocks [] s.blocks).failure? = some f) ∧
      (∀ expected actual, render settings text data = .error (.mismatch expected actual) ↔
        settings.strictReferences = true ∧
          (∃ t output u, Template.ofText? (body settings text s) = some t ∧
            (t.render (mode settings) data).run Session.requestText start = (.ok output, u)) ∧
          requests.length ≠ s.references ∧ expected = s.references ∧
          actual = requests.length) ∧
      ∀ t, Template.ofText? (body settings text s) = some t →
        renderShared settings t data start = some (render settings text data) := by
  constructor
  · intro h
    cases hsegment : segment settings.markers text with
    | error e =>
      rw [render, hsegment] at h
      cases h
    | ok s =>
      obtain ⟨f, hf, -⟩ := failure?_of_render hsegment h
      cases hf
  · intro s hsegment start requests
    refine ⟨fun f => (render_eq_request hsegment).symm, fun f hf => ?_,
      fun expected actual => render_eq_mismatch hsegment, fun t htemplate => ?_⟩
    · obtain ⟨f', ⟨⟩, hfailure⟩ :=
        failure?_of_render hsegment ((render_eq_request hsegment).2 hf)
      exact hfailure
    · rw [renderShared_eq, render_eq_renderWith hsegment htemplate]

/-- A block with a source, one tag below it that asks for a value, and braces behind a backslash
that only look like one. -/
def miscounted (source : String) : Text :=
  ("```calc\n" ++ source ++ "\n```\n\x7b\x7b_ \"x\"\x7d\x7d\\\x7b\x7b_ \"x\"\x7d\x7d").toList

/-- The segmentation of such a document. -/
def miscountedParts (source : String) : Segmentation where
  blocks := [⟨0, 0, 1, [source.toList]⟩]
  references := 2
  lines := ["\x7b\x7b_ \"x\"\x7d\x7d\\\x7b\x7b_ \"x\"\x7d\x7d".toList]

/-- If the block fails, the document is refused for that, and else because it has one request for
two references. -/
theorem render_errors_of_miscounted :
    (∃ f,
      segment ({ strictReferences := true } : Settings).markers (miscounted "x = y") =
        .ok (miscountedParts "x = y") ∧
      .error (.block f) ∈
        ((Session.ofSegmentation (miscountedParts "x = y") { strictReferences := true }).requests
          (calls { strictReferences := true } (miscounted "x = y") (miscountedParts "x = y")
            .null)).1 ∧
      f.block = 0 ∧ f.line = 1 ∧
      render { strictReferences := true } (miscounted "x = y") .null =
        .error (.request (.block f))) ∧
    segment ({ strictReferences := true } : Settings).markers (miscounted "x = 1") =
      .ok (miscountedParts "x = 1") ∧
    (calls { strictReferences := true } (miscounted "x = 1") (miscountedParts "x = 1")
      .null).length = 1 ∧
    render { strictReferences := true } (miscounted "x = 1") .null = .error (.mismatch 2 1) := by
  have hsegment : segment ({ strictReferences := true } : Settings).markers (miscounted "x = y") =
      .ok (miscountedParts "x = y") := rfl
  have hsegment' : segment ({ strictReferences := true } : Settings).markers (miscounted "x = 1") =
      .ok (miscountedParts "x = 1") := rfl
  obtain ⟨-, hfails⟩ := render_errors { strictReferences := true } (miscounted "x = y") .null
  obtain ⟨-, hmiscounts⟩ := render_errors { strictReferences := true } (miscounted "x = 1") .null
  constructor
  · obtain ⟨hanswers, hfailure, -⟩ := hfails _ hsegment
    have hrefused : ((Session.ofSegmentation (miscountedParts "x = y")
        { strictReferences := true }).requests (calls { strictReferences := true }
          (miscounted "x = y") (miscountedParts "x = y") .null)).1.any
        (·.toOption.isNone) := by
      decide +kernel
    have hplace : (runBlocks [] (miscountedParts "x = y").blocks).failure?.map
        (fun f => (f.block, f.line)) = some (0, 1) := by
      decide +kernel
    obtain ⟨answer, hanswer, hnone⟩ := List.any_eq_true.1 hrefused
    cases answer with
    | ok v => cases hnone
    | error e =>
      obtain ⟨f, rfl, -⟩ := failure?_of_render hsegment ((render_eq_request hsegment).2 hanswer)
      rw [hfailure f hanswer] at hplace
      obtain ⟨hblock, hline⟩ := Prod.mk.inj (Option.some.inj hplace)
      exact ⟨f, hsegment, hanswer, hblock, hline, (hanswers f).1 hanswer⟩
  · obtain ⟨-, -, hmismatch, -⟩ := hmiscounts _ hsegment'
    have hcalls : (calls { strictReferences := true } (miscounted "x = 1")
        (miscountedParts "x = 1") .null).length = 1 := by
      decide +kernel
    obtain ⟨t, htemplate⟩ : ∃ t, Template.ofText? (miscounted "x = 1") = some t :=
      Option.isSome_iff_exists.1 (by decide +kernel)
    -- without the strict count the document is rendered
    obtain ⟨r, hrender⟩ := exists_ok_of_isSome (x := render {} (miscounted "x = 1") .null)
      (by decide +kernel)
    have hmarkers : segment ({} : Settings).markers (miscounted "x = 1") =
        .ok (miscountedParts "x = 1") := hsegment'
    rw [render_eq_renderWith hmarkers htemplate] at hrender
    obtain ⟨u, hrun, -⟩ := exists_run_of_renderWith hrender
    have hne : (calls { strictReferences := true } (miscounted "x = 1")
        (miscountedParts "x = 1") .null).length ≠ 2 := by
      rw [hcalls]
      decide
    exact ⟨hsegment', hcalls, (hmismatch 2 1).2
      ⟨rfl, ⟨t, r.output, u, htemplate, hrun⟩, hne, rfl, hcalls.symm⟩⟩

end Document

end CalcDoc
