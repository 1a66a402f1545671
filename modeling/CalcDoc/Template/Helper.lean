import CalcDoc.Template.Data
import CalcDoc.Template.Scope

/-!
# Helpers

- `Helper`: the built-in helpers, and the one that asks for values.
- `Condition.holds`: whether a condition holds, which chooses between the parts of a block too.
- `lookUp`: a part of a collection.
- `Control.plan`: what becomes of a block.
- `Control.inline`: what such a helper gives without a body.

The helper `log` writes nothing. Its messages go nowhere here, so the level that it may be given is
not looked at, and a level that does not exist is no fault.
-/

namespace CalcDoc.Template

/-- The helpers that say whether something holds. -/
inductive Condition where
  | eq | ne | gt | gte | lt | lte | and | or | not
deriving DecidableEq, Repr

/-- The helpers that decide what becomes of a block. -/
inductive Control where
  /-- The body if a value counts as true, or as false. -/
  | choice (positive : Bool)
  | each
  | with
  /-- The body as it is. -/
  | raw
  /-- Nothing, whatever its parameters are. -/
  | log
deriving DecidableEq, Repr

/-- A helper. -/
inductive Helper where
  /-- Asks for the value of a name. -/
  | request
  /-- A part of an array or an object. -/
  | lookup
  /-- The count of the parts of a value. -/
  | len
  | condition (c : Condition)
  | control (c : Control)
deriving DecidableEq, Repr

/-- The built-in helper with a name. -/
def Helper.builtin? : String → Option Helper
  | "if" => some (.control (.choice true))
  | "unless" => some (.control (.choice false))
  | "each" => some (.control .each)
  | "with" => some (.control .with)
  | "raw" => some (.control .raw)
  | "log" => some (.control .log)
  | "lookup" => some .lookup
  | "len" => some .len
  | "eq" => some (.condition .eq)
  | "ne" => some (.condition .ne)
  | "gt" => some (.condition .gt)
  | "gte" => some (.condition .gte)
  | "lt" => some (.condition .lt)
  | "lte" => some (.condition .lte)
  | "and" => some (.condition .and)
  | "or" => some (.condition .or)
  | "not" => some (.condition .not)
  | _ => none

/-- How a template is rendered. -/
structure Mode where
  /-- Whether a missing value is a fault. -/
  strict : Bool
  /-- The name of the helper that asks for values, if there is one. -/
  request? : Option String

/-- The helper with a name. The one that asks for values comes before the built-in ones. -/
def Mode.helper? (m : Mode) (x : String) : Option Helper :=
  if m.request? = some x then some .request else Helper.builtin? x

/-- The helper that is called by a name, with a body or without one. Two names are kept for the
helper that is called where no other has the name. -/
def Mode.called? (m : Mode) (hasBody : Bool) (x : String) : Option Helper :=
  (m.helper? x).or (m.helper? (if hasBody then "blockHelperMissing" else "helperMissing"))

/-- A parameter that has been evaluated. -/
structure Arg where
  /-- The text of the path, if the parameter is one. -/
  path? : Option String
  /-- The value, unless it is missing. -/
  value? : Option Json

/-- The value of a parameter; a missing one counts as null. -/
def Arg.value (a : Arg) : Json :=
  a.value?.getD .null

/-- The parameters of a call that have been evaluated. -/
structure Args where
  plain : List Arg
  named : Table Arg

/-! ## Values -/

/-- The first parameters of a helper that was called by the name `x`. All `count` have to be there,
and in strict mode none of their values may be missing. -/
def takeValues (x : String) (strict : Bool) : (count : Nat) → List Arg → Except Fault (List Json)
  | 0, _ => .ok []
  | _ + 1, [] => .error (.missingParam x)
  | count + 1, a :: as =>
    if strict && a.value?.isNone then .error (.missingParam x)
    else (takeValues x strict count as).map fun vs => a.value :: vs

/-- How many of its parameters a condition compares; none if it takes any count of them. -/
def Condition.arity? : Condition → Option Nat
  | .eq | .ne | .gt | .gte | .lt | .lte => some 2
  | .and | .or => none
  | .not => some 1

/-- Whether a condition holds for some values. -/
def Condition.test : Condition → List Json → Bool
  | .eq, [a, b] => a.same b
  | .ne, [a, b] => !a.same b
  | .gt, [a, b] => (a.order? b).any Ordering.isGT
  | .gte, [a, b] => (a.order? b).any Ordering.isGE
  | .lt, [a, b] => (a.order? b).any Ordering.isLT
  | .lte, [a, b] => (a.order? b).any Ordering.isLE
  | .and, vs => vs.all (Json.isTruthy false)
  | .or, vs => vs.any (Json.isTruthy false)
  | .not, [a] => !a.isTruthy false
  | _, _ => false

/-- Whether a condition holds that was called by the name `x`. -/
def Condition.holds (c : Condition) (x : String) (strict : Bool) (args : Args) :
    Except Fault Bool :=
  match c.arity? with
  | some count => (takeValues x strict count args.plain).map c.test
  | none => .ok (c.test (args.plain.map Arg.value))

/-- The part of a collection that a helper looks up that was called by the name `x`. In strict mode
there has to be one. -/
def lookUp (x : String) (strict : Bool) (args : Args) : Except Fault (Option Json) :=
  match args.plain with
  | a :: b :: _ =>
    match a.value.part? b.value with
    | some v => .ok (some v)
    | none => if strict then .error .missingValue else .ok none
  | _ => .error (.missingParam x)

/-! ## Blocks -/

/-- What a block renders. -/
inductive Plan where
  /-- The body, once in each of some scopes. -/
  | body (scopes : List Scope)
  /-- The other part, if there is one. -/
  | otherwise

/-- The names that a block gives to a value and to its place. -/
def bindNames (binders : List String) (v place : Json) : Table Json :=
  match binders with
  | [x] => [(x, v)]
  | [x, y] => Table.insert [(x, v)] y place
  | _ => []

/-- The variables of a loop of `count` rounds in round `i`. -/
def loopVariables (i count : Nat) (key : Option String) : Table Json :=
  let round : Table Json :=
    [("first", .bool (i == 0)), ("index", .number (.integer i)), ("last", .bool (i + 1 == count))]
  match key with
  | some x => round.insert "key" (.str x)
  | none => round

/-- The scopes of a loop over the items of an array, from round `i` on. -/
def itemScopes (s : Scope) (binders : List String) (count : Nat) :
    (i : Nat) → List Json → List Scope
  | _, [] => []
  | i, v :: vs =>
    s.push ⟨v, loopVariables i count none, bindNames binders v (.number (.integer i))⟩ ::
      itemScopes s binders count (i + 1) vs

/-- The scopes of a loop over the fields of an object, from round `i` on. -/
def fieldScopes (s : Scope) (binders : List String) (count : Nat) :
    (i : Nat) → Table Json → List Scope
  | _, [] => []
  | i, (x, v) :: fs =>
    s.push ⟨v, loopVariables i count (some x), bindNames binders v (.str x)⟩ ::
      fieldScopes s binders count (i + 1) fs

/-- What a block renders that has nothing to render its body with: its other part, which it has
to have in strict mode. -/
def planOther (strict hasOther : Bool) : Except Fault Plan :=
  if strict && !hasOther then .error .missingValue else .ok .otherwise

/-- Whether a choice counts zero as true. -/
def Args.includesZero (args : Args) : Bool :=
  match (args.named.get? "includeZero").map Arg.value with
  | some (.bool b) => b
  | _ => false

/-- Whether the body of a choice is rendered, for a value. -/
def Args.chooses (args : Args) (positive : Bool) (v : Json) : Bool :=
  v.isTruthy args.includesZero == positive

/-- The names that a block with one value gives to it. -/
def bindName (binders : List String) (v : Json) : Table Json :=
  match binders with
  | [x] => [(x, v)]
  | _ => []

/-- The body in a scope, or the other part. -/
def Plan.choose (holds : Bool) (s : Scope) : Plan :=
  if holds then .body [s] else .otherwise

/-- What a loop over a value renders. -/
def planLoop (strict hasOther : Bool) (s : Scope) (binders : List String) :
    Json → Except Fault Plan
  | .array items =>
    .ok (if items.isEmpty && hasOther then .otherwise
      else .body (itemScopes s binders items.length 0 items))
  | .object fields =>
    .ok (if fields.isEmpty && hasOther then .otherwise
      else .body (fieldScopes s binders fields.length 0 fields))
  | _ => planOther strict hasOther

/-- What a block renders that makes a value its context. -/
def planWith (strict hasOther : Bool) (s : Scope) (binders : List String) (v : Json) :
    Except Fault Plan :=
  if v.isTruthy false then .ok (.body [s.push ⟨v, s.frame.loop, bindName binders v⟩])
  else planOther strict hasOther

/-- What a block renders that was opened by the name `x` in a scope, and that has another part or
not. The level of a `log` is not looked at. -/
def Control.plan (c : Control) (x : String) (strict hasOther : Bool) (s : Scope)
    (binders : List String) (args : Args) : Except Fault Plan :=
  match c, args.plain with
  | .raw, _ => .ok (.body [s])
  | .log, _ => .ok (.body [])
  | _, [] => .error (.missingParam x)
  | .choice positive, a :: _ => .ok (Plan.choose (args.chooses positive a.value) s)
  | .each, a :: _ => planLoop strict hasOther s binders a.value
  | .with, a :: _ => planWith strict hasOther s binders a.value

/-- A helper for blocks that was called without a body by the name `x`: it writes nothing, but
needs its parameter. The level of a `log` is not looked at. -/
def Control.inline (c : Control) (x : String) (strict : Bool) (args : Args) : Except Fault Json :=
  match c, args.plain with
  | .raw, _ => .ok (.str "")
  | .log, _ => .ok (.str "")
  | _, [] => .error (.missingParam x)
  | .with, a :: _ =>
    if strict && !a.value.isTruthy false then .error .missingValue else .ok (.str "")
  | _, _ => .ok (.str "")

end CalcDoc.Template
