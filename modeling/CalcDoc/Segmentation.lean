import CalcDoc.Settings.Basic
import CalcDoc.Text.Lines

/-!
# Segmentation

A document is prose with code blocks in it. A line that starts with the open marker opens a block,
and the next line that starts with the close marker closes it. Outside of blocks, a line that
starts with the close marker opens a listing, which stays prose and goes on to the next line that
is the close marker alone.

- `countReferences`: the references to values on a line, by the look of the text alone.
- `Block`: a code block. Its threshold is the count of references in the prose above it.
- `Segmentation`: the blocks of a document, its prose, and the count of all references.
- `segment`: the segmentation of a text, unless a block is never closed or a line closes nothing.
-/

namespace CalcDoc

/-- The marks that a document is segmented by. -/
structure Markers where
  openMarker : Text
  closeMarker : Text
  helper : Text

/-- The markers in the settings. -/
def Settings.markers (s : Settings) : Markers where
  openMarker := s.openMarker.toList
  closeMarker := s.closeMarker.toList
  helper := s.helper.toList

/-! ## References -/

/-- Whether the text after two opening braces goes on as a reference: perhaps a third brace,
perhaps `~`, any blanks, the name of the helper, and a blank. -/
def isReference (helper t : Text) : Bool :=
  let t := Text.trimStart (Text.dropOne '~' (Text.dropOne '{' t))
  match Text.stripStart? helper t with
  | some (c :: _) => isBlank c
  | _ => false

/-- The count of references on a line. -/
def countReferences (helper : Text) : Text → Nat
  | '{' :: '{' :: t => (if isReference helper t then 1 else 0) + countReferences helper t
  | _ :: t => countReferences helper t
  | [] => 0

/-! ## Blocks -/

/-- A code block. -/
structure Block where
  /-- The position among the blocks of the document, from 0. -/
  index : Nat
  /-- The references in the prose above the block. -/
  threshold : Nat
  /-- The line of the open marker, from 1. -/
  fenceLine : Nat
  lines : List Text

/-- The source of a block. -/
def Block.source (b : Block) : Text :=
  Text.unlines b.lines

/-- A document taken apart. -/
structure Segmentation where
  /-- The blocks from top to bottom. -/
  blocks : List Block
  /-- The references in all of the prose. -/
  references : Nat
  /-- The lines outside of blocks. -/
  lines : List Text

/-- The document without its blocks. -/
def Segmentation.prose (s : Segmentation) : Text :=
  Text.unlines s.lines

/-- Why a text has no segmentation. -/
inductive FenceError where
  /-- The block that was opened on a line is never closed. -/
  | unterminated (line : Nat)
  /-- The close marker on a line closes nothing. -/
  | unmatched (line : Nat)
deriving DecidableEq, Repr

/-- The text of the error. -/
def FenceError.message : FenceError → String
  | .unterminated line => "code block opened on line " ++ toString line ++ " is never closed"
  | .unmatched line =>
    "close marker on line " ++ toString line ++ " has no matching open fence"

/-- Whether a line is the close marker alone, but for blanks after it. -/
def Markers.isBareClose (m : Markers) (line : Text) : Bool :=
  match Text.stripStart? m.closeMarker line with
  | some rest => rest.all isBlank
  | none => false

/-- Whether a line opens a block. -/
def Markers.opens (m : Markers) (line : Text) : Bool :=
  Text.startsWith m.openMarker line

/-- Whether a line in a block closes it. -/
def Markers.closes (m : Markers) (line : Text) : Bool :=
  Text.startsWith m.closeMarker line

/-- Where the lines that follow belong. -/
inductive Region where
  | prose
  | listing
  /-- In the block that was opened on line `fence`; its lines so far, the last one first. -/
  | block (fence : Nat) (linesBack : List Text)

/-- The segmentation of a document with one more line of prose at its top. -/
def Segmentation.addLine (line : Text) (s : Segmentation) : Segmentation :=
  { s with lines := line :: s.lines }

/-- The segmentation of a document with one more block at its top. -/
def Segmentation.addBlock (b : Block) (s : Segmentation) : Segmentation :=
  { s with blocks := b :: s.blocks }

/-- The segmentation of the lines from line `n` on, which lie in a region, with `index` blocks and
`references` references above them. -/
def segmentLines (m : Markers) (region : Region) (n index references : Nat) :
    List Text → Except FenceError Segmentation
  | [] =>
    match region with
    | .block fence _ => .error (.unterminated fence)
    | _ => .ok ⟨[], references, []⟩
  | line :: rest =>
    match region with
    | .prose =>
      if m.opens line then segmentLines m (.block n []) (n + 1) index references rest
      else if m.isBareClose line then .error (.unmatched n)
      else
        let region := if m.closes line then .listing else .prose
        (segmentLines m region (n + 1) index (references + countReferences m.helper line)
          rest).map (·.addLine line)
    | .listing =>
      let region := if m.isBareClose line then .prose else .listing
      (segmentLines m region (n + 1) index (references + countReferences m.helper line)
        rest).map (·.addLine line)
    | .block fence linesBack =>
      if m.closes line then
        (segmentLines m .prose (n + 1) (index + 1) references rest).map
          (·.addBlock ⟨index, references, fence, linesBack.reverse⟩)
      else segmentLines m (.block fence (line :: linesBack)) (n + 1) index references rest

/-- The segmentation of a text. -/
def segment (m : Markers) (text : Text) : Except FenceError Segmentation :=
  segmentLines m .prose 1 0 0 (Text.lines text)

end CalcDoc
