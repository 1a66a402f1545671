import CalcDoc.Template.Piece

/-!
# From pieces to nested blocks

- `nest`: the nodes of a list of pieces. Each closing tag names the block that it closes, and
  a block has at most one last other part.
- `Template.ofText?`: the template of a text.

A text with a partial, a decorator or a raw block has no template; it is as malformed as one whose
tags are not closed.
-/

namespace CalcDoc

namespace Template

/-- A block that is still open. -/
structure OpenBlock where
  call : Call
  binders : List String
  /-- The body, if the other part has begun. -/
  body? : Option (List Node)
  /-- What stands before the block, the last node first. -/
  above : List Node
  /-- Whether the block is the other part of the block around it. -/
  chained : Bool

/-- The block, of which the last part is read. -/
def OpenBlock.node (b : OpenBlock) (part : List Node) : Node :=
  match b.body? with
  | none => .block b.call b.binders part none
  | some body => .block b.call b.binders body (some part)

/-- Closes the innermost block of a name, together with its other parts that are blocks. Gives
the nodes around it, the last one first, and the blocks that are open still. -/
def closeBlock (name : Option String) :
    (blocks : List OpenBlock) → (part : List Node) → Option (List Node × List OpenBlock)
  | [], _ => none
  | b :: blocks, part =>
    if b.chained then closeBlock name blocks [b.node part]
    else if name = some b.call.helper then some (b.node part :: b.above, blocks)
    else none

/-- Begins the other part of the innermost block, if it has none. -/
def beginOther : (blocks : List OpenBlock) → (part : List Node) → Option (List OpenBlock)
  | b :: blocks, part =>
    if b.body?.isSome then none else some ({ b with body? := some part } :: blocks)
  | [], _ => none

/-- The nodes of some pieces inside open blocks, of which the innermost comes first; `back` are
the nodes of its last part so far, the last one first. -/
def nest : (blocks : List OpenBlock) → (back : List Node) → List Piece → Option (List Node)
  | [], back, [] => some back.reverse
  | _ :: _, _, [] => none
  | blocks, back, .text t :: ps => nest blocks (.text t :: back) ps
  | blocks, back, .tag m _ :: ps =>
    match m.tag with
    | .value p => nest blocks (.value p :: back) ps
    | .call c => nest blocks (.call c :: back) ps
    | .comment => nest blocks back ps
    | .openBlock c xs => nest (⟨c, xs, none, back, false⟩ :: blocks) [] ps
    | .elseBlock c xs =>
      match beginOther blocks back.reverse with
      | some blocks => nest (⟨c, xs, none, [], true⟩ :: blocks) [] ps
      | none => none
    | .otherwise =>
      match beginOther blocks back.reverse with
      | some blocks => nest blocks [] ps
      | none => none
    | .close name =>
      match closeBlock name blocks back.reverse with
      | some (back, blocks) => nest blocks back ps
      | none => none

/-- The template of a text, if its tags are well formed; partials, decorators and raw blocks are
not. -/
def ofText? (t : Text) : Option Template :=
  (readPieces (t.length + 1) true t).bind fun ps => nest [] [] (trimPieces false false ps)

end Template

end CalcDoc
