import CalcDoc.Template.Helper
import CalcDoc.Template.Nesting

/-!
# Rendering

- `Param.eval`: the value of a parameter; a call among the parameters may ask for values.
- `Template.render`: the text of a template filled with data, as a dialogue.
- `Template.fill`: the same without a helper that asks for values.

Everything happens from left to right: the parameters of a call before the call, the parts of a
template one after the other. The first fault ends it.
-/

namespace CalcDoc

namespace Template

/-- Asks for the value that the first parameter names. A path is a name by its text, whatever its
value. -/
def askFor (helper : String) : List Arg → Dialogue Json
  | [] => .fault (.needsName helper)
  | a :: _ =>
    match a.path?, a.value with
    | some raw, _ => .ask raw fun t => .done (.str t)
    | none, .str x => .ask x fun t => .done (.str t)
    | none, v => .fault (.notAName helper v)

/-- The result of a helper that was called by the name `x`; it may be missing. -/
def Helper.call (h : Helper) (x : String) (strict : Bool) (args : Args) :
    Dialogue (Option Json) :=
  match h with
  | .request => (askFor x args.plain).andThen fun v => .done (some v)
  | .lookup => .ofExcept (lookUp x strict args)
  | .len =>
    .ofExcept ((takeValues x strict 1 args.plain).map fun vs =>
      vs.head?.map fun v => .number (.integer v.size))
  | .condition c => .ofExcept ((c.holds x strict args).map fun b => some (.bool b))
  | .control c => .ofExcept ((c.inline x strict args).map some)

/-- The result of a call, with a body or without one, that writes no part of a body. -/
def callHelper (m : Mode) (hasBody : Bool) (x : String) (args : Args) : Dialogue (Option Json) :=
  match m.called? hasBody x with
  | none => .fault (.unknownHelper x)
  | some h => h.call x m.strict args

/-! ## Parameters -/

mutual

/-- Evaluates a parameter. -/
def Param.eval (m : Mode) (s : Scope) : Param → Dialogue Arg
  | .literal v => .done ⟨none, some v⟩
  | .path p =>
    match s.resolve p with
    | .ok v => .done ⟨some p.raw, v⟩
    | .error f => .fault f
  | .sub x params named =>
    (evalPlain m s params).andThen fun plain =>
    (evalNamed m s named).andThen fun named =>
    (callHelper m false x ⟨plain, named⟩).andThen fun v => .done ⟨none, v⟩

/-- Evaluates some parameters in order. -/
def evalPlain (m : Mode) (s : Scope) : List Param → Dialogue (List Arg)
  | [] => .done []
  | p :: ps =>
    (p.eval m s).andThen fun a => (evalPlain m s ps).andThen fun as => .done (a :: as)

/-- Evaluates some named parameters in order. -/
def evalNamed (m : Mode) (s : Scope) : List (String × Param) → Dialogue (Table Arg)
  | [] => .done []
  | (x, p) :: ps =>
    (p.eval m s).andThen fun a => (evalNamed m s ps).andThen fun as => .done ((x, a) :: as)

end

/-- Evaluates the parameters of a call. -/
def Call.eval (m : Mode) (s : Scope) (c : Call) : Dialogue Args :=
  (evalPlain m s c.params).andThen fun plain =>
  (evalNamed m s c.named).andThen fun named => .done ⟨plain, named⟩

/-! ## Nodes -/

/-- Writes the result of a call without a body. -/
def writeCall (m : Mode) (x : String) (args : Args) : Dialogue Text :=
  (callHelper m false x args).andThen fun v => .done (v.getD .null).display

/-- Writes a value, if it is not missing; `x` is its name. In strict mode it must not be missing.
In the other mode nothing is written for it, unless a helper is there for what is missing. -/
def writeFound (m : Mode) (x : String) : Option Json → Dialogue Text
  | some v => .done v.display
  | none =>
    if m.strict then .fault .missingValue
    else if (m.called? false x).isSome then writeCall m x ⟨[], []⟩
    else .done []

/-- Writes a value. The name of a helper calls it. A call in parentheses is evaluated twice: once
because its result might name a helper, and once for the helper's name, or to be written. -/
def writeValue (m : Mode) (s : Scope) : Param → Dialogue Text
  | .path p =>
    if (m.helper? p.raw).isSome then writeCall m p.raw ⟨[], []⟩
    else
      match s.resolve p with
      | .error f => .fault f
      | .ok v => writeFound m p.raw v
  | p =>
    (p.eval m s).andThen fun first =>
    (p.eval m s).andThen fun second =>
      let name (a : Arg) := String.ofList a.value.display
      if (m.helper? (name first)).isSome then writeCall m (name second) ⟨[], []⟩
      else writeFound m (name second) second.value?

/-- What a block renders: the text of a value, or its parts. -/
inductive Opened where
  | text (t : Text)
  | parts (plan : Plan)

/-- Opens a block. A helper that computes a value writes it instead; a condition chooses between
the parts of the block. -/
def openBlock (m : Mode) (s : Scope) (x : String) (binders : List String) (hasOther : Bool)
    (args : Args) : Dialogue Opened :=
  match m.called? true x with
  | some (.control c) =>
    (Dialogue.ofExcept (c.plan x m.strict hasOther s binders args)).andThen fun plan =>
      .done (.parts plan)
  | some (.condition c) =>
    (Dialogue.ofExcept (c.holds x m.strict args)).andThen fun b =>
      .done (.parts (Plan.choose b s))
  | _ => (callHelper m true x args).andThen fun v => .done (.text (v.getD .null).display)

/-- The texts of some dialogues, one after the other. -/
def joinTexts : List (Dialogue Text) → Dialogue Text
  | [] => .done []
  | d :: ds => d.andThen fun t => (joinTexts ds).andThen fun u => .done (t ++ u)

mutual

/-- Renders a node. -/
def Node.render (m : Mode) : Node → Scope → Dialogue Text
  | .text t, _ => .done t
  | .value p, s => writeValue m s p
  | .call c, s =>
    (c.eval m s).andThen fun args => writeCall m c.helper args
  | .block c binders body other, s =>
    (c.eval m s).andThen fun args =>
    (openBlock m s c.helper binders other.isSome args).andThen fun
      | .text t => .done t
      | .parts (.body scopes) => joinTexts (scopes.map fun s => renderNodes m body s)
      | .parts .otherwise =>
        match other with
        | some nodes => renderNodes m nodes s
        | none => .done []

/-- Renders some nodes, one after the other. -/
def renderNodes (m : Mode) : List Node → Scope → Dialogue Text
  | [], _ => .done []
  | n :: ns, s =>
    (n.render m s).andThen fun t => (renderNodes m ns s).andThen fun u => .done (t ++ u)

end

/-- The text of a template filled with data. -/
def render (m : Mode) (t : Template) (data : Json) : Dialogue Text :=
  renderNodes m t (Scope.ofData data)

/-- The text of a template filled with data alone. -/
def fill (strict : Bool) (t : Template) (data : Json) : Except Fault Text :=
  let silent : Unit → String → Except Empty String × Unit := fun () _ => (.ok "", ())
  match ((t.render ⟨strict, none⟩ data).run silent ()).1 with
  | .ok text => .ok text
  | .error (.fault f) => .error f

end Template

end CalcDoc
