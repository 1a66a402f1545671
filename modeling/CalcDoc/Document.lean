import CalcDoc.Session
import CalcDoc.Template.Rendering

/-!
# Documents

A document is a template with code blocks in it. Its references ask the session of its blocks for
values, so each shows the value that the blocks above it have given.

- `Document.render`: a document filled with data and with the values of its blocks.
- `RenderError`: why there is no such text.
-/

namespace CalcDoc

/-- Why a document cannot be rendered. -/
inductive RenderError where
  | fence (e : FenceError)
  /-- A request was not answered. -/
  | request (e : RequestError)
  /-- The tags are not well formed. -/
  | malformed
  | fault (f : Template.Fault)
  /-- There were other than the expected requests. -/
  | mismatch (expected actual : Nat)

/-- The text of the error. -/
def RenderError.message : RenderError → String
  | .fence e => e.message
  | .request e => e.message
  | .malformed => "template rendering failed: the tags are not well formed"
  | .fault f => "template rendering failed: " ++ f.message
  | .mismatch expected actual =>
    "template made " ++ toString actual ++ " value requests, but its text contains " ++
      toString expected ++ " references"

/-- A document that has been rendered. -/
structure Rendered where
  output : Text
  report : Session.Report
  /-- The namespace as the last block left it. -/
  names : Script.Namespace

namespace Document

/-- The part of a document that its template is read from. -/
def body (settings : Settings) (text : Text) (s : Segmentation) : Text :=
  match settings.blocks with
  | .echo => text
  | .strip => s.prose

/-- How the template of a document is rendered. -/
def mode (settings : Settings) : Template.Mode where
  strict := settings.strictMode
  request? := some settings.helper

/-- The end of a document that has been rendered without fault, with the session at its end. -/
def conclude (settings : Settings) (output : Text) (s : Session) : Except RenderError Rendered :=
  if settings.strictReferences && !s.report.consistent then
    .error (.mismatch s.report.expected s.report.requests)
  else .ok ⟨output, s.report, s.names⟩

/-- Renders a template with the values of a session. -/
def renderWith (settings : Settings) (t : Template) (data : Json) (s : Session) :
    Except RenderError Rendered :=
  match (t.render (mode settings) data).run Session.requestText s with
  | (.ok output, s) => conclude settings output s
  | (.error (.unanswered e), _) => .error (.request e)
  | (.error (.fault f), _) => .error (.fault f)

/-- Renders a document. A block that fails is reported as such, and a mismatch of the references
only if there is no other error. -/
def render (settings : Settings) (text : Text) (data : Json) : Except RenderError Rendered :=
  match segment settings.markers text with
  | .error e => .error (.fence e)
  | .ok s =>
    match Template.ofText? (body settings text s) with
    | none => .error .malformed
    | some t => renderWith settings t data (Session.ofSegmentation s settings)

end Document

end CalcDoc
