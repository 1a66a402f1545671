import CalcDoc.Number.Reader
import CalcDoc.Template.Basic
import CalcDoc.Template.Dialogue

/-!
# Scopes

Blocks may open contexts: the value that names are looked up in, with the variables of the loop
and the names that the block gives to values.

- `Scope`: the contexts around a place in a template, and the data as a whole.
- `Scope.resolve`: the value of a path there, if it has one.
-/

namespace CalcDoc.Template

/-- A context that a block has opened. -/
structure Frame where
  context : Json
  /-- The variables of the loop. -/
  loop : Table Json
  /-- The values that the block has named. -/
  binders : Table Json

/-- The contexts around a place in a template. -/
structure Scope where
  data : Json
  frame : Frame
  /-- The contexts outside of the innermost one, from the inside out. -/
  outer : List Frame

/-- The scope of a whole template. -/
def Scope.ofData (data : Json) : Scope :=
  ⟨data, ⟨data, [], []⟩, []⟩

/-- All contexts, from the inside out. -/
def Scope.frames (s : Scope) : List Frame :=
  s.frame :: s.outer

/-- The scope inside one more context. -/
def Scope.push (s : Scope) (f : Frame) : Scope :=
  { s with frame := f, outer := s.frames }

/-- The position that a step into an array stands for. -/
def readPosition? (x : String) : Option Nat :=
  let ds := Text.dropOne '+' x.toList
  let i := digitsValue ds
  if ds ≠ [] ∧ ds.all Char.isDigit ∧ i < UInt64.size then some i else none

/-- The value that some names lead to from a value, if there is one. -/
def follow : (names : List String) → Json → Except Fault (Option Json)
  | [], v => .ok (some v)
  | x :: xs, .array items =>
    match readPosition? x with
    | none => .error .badIndex
    | some i =>
      match items[i]? with
      | some v => follow xs v
      | none => .ok none
  | x :: xs, v =>
    match v.get? x with
    | some v => follow xs v
    | none => .ok none

/-- The value of a name that a block has given to it; the innermost block counts. -/
def Scope.bound? (s : Scope) (x : String) : Option Json :=
  s.frames.findSome? fun f => f.binders.get? x

/-- The context that lies `levels` contexts out. If there are not so many it is the innermost. -/
def Scope.contextAt (s : Scope) (levels : Nat) : Json :=
  ((s.frames[levels]?).getD s.frame).context

/-- The value of a path, if it has one. A name that a block has given to a value comes first. -/
def Scope.resolve (s : Scope) (p : Path) : Except Fault (Option Json) :=
  match p.target with
  | .loopVariable level x => .ok ((s.frames[level]?).bind fun f => f.loop.get? x)
  | .root names => follow names s.data
  | .context levels [] => .ok (some (s.contextAt levels))
  | .context levels (x :: xs) =>
    match s.bound? x with
    | some v => follow xs v
    | none => follow (x :: xs) (s.contextAt levels)

end CalcDoc.Template
