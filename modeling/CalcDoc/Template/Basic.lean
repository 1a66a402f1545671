import CalcDoc.Json.Basic
import CalcDoc.Text.Basic

/-!
# Templates

A template is text with tags in it. A tag writes a value, calls a helper, or opens a block whose
body the helper renders as often as it likes. Partials, decorators and raw blocks, which templates
may have elsewhere, are no part of this language.

- `Path`: where in the data a value is found.
- `Param`, `Call`: what a helper is called with.
- `Node`, `Template`: a template that has been read.
-/

namespace CalcDoc

namespace Template

/-- What a path starts from, and the names that lead on from there. -/
inductive Target where
  /-- A variable of the loop `level` loops out. -/
  | loopVariable (level : Nat) (x : String)
  /-- From the data as a whole. -/
  | root (names : List String)
  /-- From the context `levels` contexts out. -/
  | context (levels : Nat) (names : List String)
deriving DecidableEq, Repr

/-- A path, with the text that it is written as. -/
structure Path where
  raw : String
  target : Target
deriving DecidableEq, Repr

/-- A parameter of a call. -/
inductive Param where
  | literal (v : Json)
  | path (p : Path)
  /-- The result of another call, which has named parameters too. -/
  | sub (name : String) (params : List Param) (named : List (String × Param))

/-- A call of a helper. -/
structure Call where
  helper : String
  params : List Param
  named : Table Param

/-- A part of a template. -/
inductive Node where
  | text (t : Text)
  /-- A path or another call in braces of its own. -/
  | value (p : Param)
  | call (c : Call)
  /-- A block, with the names that it gives to values for its body. -/
  | block (c : Call) (binders : List String) (body : List Node)
    (otherwise : Option (List Node))

end Template

/-- A template that has been read. -/
abbrev Template := List Template.Node

end CalcDoc
