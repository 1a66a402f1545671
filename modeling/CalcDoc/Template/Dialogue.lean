import CalcDoc.Json.Printer

/-!
# Dialogues

Rendering a template asks for values by name, one at a time. What it does next may depend on the
answers so far, and on nothing else: so it is a tree of questions, and whoever answers them need
not be known.

- `Dialogue`: ends with a result or a fault, or asks a question and goes on with the answer.
- `Dialogue.run`: the end of a dialogue with someone who answers from a state of their own.
- `Dialogue.run_andThen`: a dialogue and what follows it run one after the other.
-/

namespace CalcDoc.Template

/-- Why a template cannot be rendered. -/
inductive Fault where
  /-- A value that the data does not have. -/
  | missingValue
  | unknownHelper (x : String)
  /-- A step into an array that is no position. -/
  | badIndex
  | missingParam (helper : String)
  /-- A question without the name of a value. -/
  | needsName (helper : String)
  /-- A question for something that is no name. -/
  | notAName (helper : String) (v : Json)

/-- The text of a fault. -/
def Fault.message : Fault → String
  | .missingValue => "a value is missing from the data"
  | .unknownHelper x => "there is no helper '" ++ x ++ "'"
  | .badIndex => "a step into an array is no position"
  | .missingParam x => "helper '" ++ x ++ "' needs a parameter"
  | .needsName x => "helper '" ++ x ++ "' needs a name argument"
  | .notAName x v =>
    "helper '" ++ x ++ "' expects a name, got " ++ String.ofList v.text

/-- A computation that asks for texts by name. -/
inductive Dialogue (α : Type) where
  | done (a : α)
  | fault (f : Fault)
  | ask (x : String) (next : String → Dialogue α)

namespace Dialogue

variable {α β : Type}

/-- A dialogue that goes on with the result of another. -/
def andThen (d : Dialogue α) (k : α → Dialogue β) : Dialogue β :=
  match d with
  | .done a => k a
  | .fault f => .fault f
  | .ask x next => .ask x fun answer => andThen (next answer) k

instance : Monad Dialogue where
  pure := .done
  bind := andThen

/-- The dialogue that ends at once. -/
def ofExcept : Except Fault α → Dialogue α
  | .ok a => .done a
  | .error f => .fault f

/-- Why a dialogue has no result: a question was not answered, or the template is at fault. -/
inductive Failure (ε : Type) where
  | unanswered (e : ε)
  | fault (f : Fault)

/-- The end of a dialogue, with the state that the answers leave. -/
def run {σ ε : Type} (answer : σ → String → Except ε String × σ) :
    Dialogue α → σ → Except (Failure ε) α × σ
  | .done a, s => (.ok a, s)
  | .fault f, s => (.error (.fault f), s)
  | .ask x next, s =>
    match answer s x with
    | (.ok text, s) => run answer (next text) s
    | (.error e, s) => (.error (.unanswered e), s)

@[simp] theorem pure_eq_done (a : α) : (pure a : Dialogue α) = .done a := rfl

@[simp] theorem bind_eq_andThen (d : Dialogue α) (k : α → Dialogue β) :
    d >>= k = d.andThen k := rfl

@[simp] theorem done_andThen (a : α) (k : α → Dialogue β) : (done a).andThen k = k a := rfl

@[simp] theorem andThen_done (d : Dialogue α) : d.andThen .done = d := by
  induction d with
  | done a => rfl
  | fault f => rfl
  | ask x next ih => simp [andThen, ih]

theorem andThen_assoc {γ : Type} (d : Dialogue α) (k : α → Dialogue β) (l : β → Dialogue γ) :
    (d.andThen k).andThen l = d.andThen fun a => (k a).andThen l := by
  induction d with
  | done a => rfl
  | fault f => rfl
  | ask x next ih => simp [andThen, ih]

/-- A dialogue and what follows it run one after the other. -/
theorem run_andThen {σ ε : Type} (answer : σ → String → Except ε String × σ)
    (d : Dialogue α) (k : α → Dialogue β) (s : σ) :
    (d.andThen k).run answer s =
      match d.run answer s with
      | (.ok a, s) => (k a).run answer s
      | (.error e, s) => (.error e, s) := by
  induction d generalizing s with
  | done a => rfl
  | fault f => rfl
  | ask x next ih =>
    simp only [andThen, run]
    split
    · exact ih _ _
    · rfl

end Dialogue

end CalcDoc.Template
