import CalcDoc.Script.Evaluation
import CalcDoc.Segmentation

/-!
# Sessions

A session serves the values of one document. It counts the requests, and runs a block as soon as
the count exceeds the references above the block; so each request sees the namespace as the blocks
above its reference leave it. A failing block ends the session.

- `Session.ofSegmentation`, `Session.ofText?`: a session that has just begun.
- `Session.request`, `Session.requestText`: the answer to a request, and the session after it.
- `Session.checkBlocks`: whether the blocks that wait are programs.
- `Session.report`: what the session has done.
-/

namespace CalcDoc

open Script (Namespace Value)

/-- A block failed. -/
structure BlockFailure where
  block : Nat
  line : Nat
  cause : Script.Error

/-- The text of the failure, without its cause. -/
def BlockFailure.message (f : BlockFailure) : String :=
  "code block #" ++ toString f.block ++ " (line " ++ toString f.line ++ ") failed"

/-- Why a request is not answered. -/
inductive RequestError where
  | block (failure : BlockFailure)
  /-- A block failed at an earlier request. -/
  | aborted

/-- The text of the error. -/
def RequestError.message : RequestError → String
  | .block f => f.message
  | .aborted => "evaluation session aborted by an earlier block failure"

/-- The session of a document. -/
structure Session where
  /-- The blocks that wait, from top to bottom. -/
  pending : List Block
  names : Namespace
  /-- The requests so far. -/
  counter : Nat
  /-- The blocks that have been run. -/
  executed : Nat
  /-- The blocks of the document. -/
  total : Nat
  /-- The references of the document. -/
  expected : Nat
  /-- What is written for a name without a value. -/
  sentinel : String
  aborted : Bool

namespace Session

/-- A session that has just begun. -/
def ofSegmentation (s : Segmentation) (settings : Settings) : Session where
  pending := s.blocks
  names := []
  counter := 0
  executed := 0
  total := s.blocks.length
  expected := s.references
  sentinel := settings.undefined
  aborted := false

/-- A session of a text. -/
def ofText? (text : Text) (settings : Settings) : Except FenceError Session :=
  (segment settings.markers text).map fun s => ofSegmentation s settings

/-- The session after a block has been run, and how the block failed, if it did. -/
def runBlock (s : Session) (b : Block) : Session × Option BlockFailure :=
  let outcome := Script.runSource s.names b.source
  let s := { s with names := outcome.names, executed := s.executed + 1 }
  match outcome.error? with
  | none => (s, none)
  | some err => ({ s with aborted := true }, some ⟨b.index, b.fenceLine, err⟩)

/-- Runs those of the waiting blocks whose threshold the count exceeds, up to the first that waits
on or fails. -/
def release (s : Session) : List Block → Session × Option BlockFailure
  | [] => ({ s with pending := [] }, none)
  | b :: bs =>
    if b.threshold < s.counter then
      match runBlock { s with pending := bs } b with
      | (s, none) => release s bs
      | (s, some failure) => (s, some failure)
    else ({ s with pending := b :: bs }, none)

/-- Answers a request for the value of a name; a name without a value is no error. -/
def request (s : Session) (x : String) : Except RequestError (Option Value) × Session :=
  if s.aborted then (.error .aborted, s)
  else
    match release { s with counter := s.counter + 1 } s.pending with
    | (s, none) => (.ok (Table.get? s.names x), s)
    | (s, some failure) => (.error (.block failure), s)

/-- What is written for the value of a name. -/
def answerText (sentinel : String) : Option Value → String
  | some v => v.text
  | none => sentinel

/-- Answers a request with the text of the value. -/
def requestText (s : Session) (x : String) : Except RequestError String × Session :=
  let (answer, s') := s.request x
  (answer.map (answerText s.sentinel), s')

/-- The first of the waiting blocks that is no program. -/
def checkBlocks (s : Session) : Option BlockFailure :=
  s.pending.findSome? fun b =>
    (Script.checkSource b.source).map fun err => ⟨b.index, b.fenceLine, err⟩

/-- What a session has done. -/
structure Report where
  requests : Nat
  expected : Nat
  total : Nat
  executed : Nat
  pending : Nat

/-- Whether there were as many requests as the text has references. -/
def Report.consistent (r : Report) : Bool :=
  r.requests == r.expected

/-- What the session has done so far. -/
def report (s : Session) : Report where
  requests := s.counter
  expected := s.expected
  total := s.total
  executed := s.executed
  pending := s.pending.length

end Session

end CalcDoc
