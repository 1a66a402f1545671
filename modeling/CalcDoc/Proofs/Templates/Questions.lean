import CalcDoc.Proofs.Templates.Bare
import Mathlib.Algebra.Ring.Nat

/-!
# How much a template asks for

A template without blocks asks once for each call of the helper that asks for values, in the order
of its tags. A tag that is a call in parentheses is evaluated twice, and asks twice.

- `Dialogue.Asks`: the count of the questions of a dialogue.
- `Param.calls`, `Call.calls`, `Tag.calls`: the calls of a helper in a tag.
- `Mode.AsksBy`: which helper asks; `asks_callHelper`: what calls one asks at most once.
- `asks_flatNodes`: a template without blocks asks for what is called in its tags.
- `flatNodes_of_nest`: such a template is a row of values and calls.
-/

namespace CalcDoc.Template

/-! ## Questions -/

namespace Dialogue

variable {α β : Type}

/-- A dialogue asks `n` questions, unless it ends with a fault before. -/
inductive Asks : Dialogue α → Nat → Prop where
  | done (a : α) : Asks (.done a) 0
  | fault (f : Fault) (n : Nat) : Asks (.fault f) n
  | ask {x : String} {next : String → Dialogue α} {n : Nat} :
      (∀ answer, Asks (next answer) n) → Asks (.ask x next) (n + 1)

/-- The questions of a dialogue and of what follows it. -/
theorem Asks.andThen {d : Dialogue α} {k : α → Dialogue β} {i j : Nat} (hd : d.Asks i)
    (hk : ∀ a, (k a).Asks j) : (d.andThen k).Asks (i + j) := by
  induction hd with
  | done a =>
    rw [Nat.zero_add]
    exact hk a
  | fault f n => exact .fault f _
  | @ask x next n _ ih =>
    rw [Nat.add_right_comm]
    exact .ask ih

/-- What follows a dialogue asks nothing. -/
theorem Asks.andThen_zero {d : Dialogue α} {k : α → Dialogue β} {n : Nat} (hd : d.Asks n)
    (hk : ∀ a, (k a).Asks 0) : (d.andThen k).Asks n :=
  hd.andThen hk

theorem asks_ofExcept (r : Except Fault α) : (ofExcept r).Asks 0 := by
  cases r with
  | ok a => exact .done a
  | error f => exact .fault f 0

end Dialogue

open Dialogue (Asks)

/-! ## Calls -/

mutual

/-- The calls of the helper `x` in a parameter. -/
def Param.calls (x : String) : Param → Nat
  | .literal _ => 0
  | .path _ => 0
  | .sub y params named =>
    callsPlain x params + callsNamed x named + (if y = x then 1 else 0)

/-- The calls in some parameters. -/
def callsPlain (x : String) : List Param → Nat
  | [] => 0
  | p :: ps => p.calls x + callsPlain x ps

/-- The calls in some named parameters. -/
def callsNamed (x : String) : List (String × Param) → Nat
  | [] => 0
  | (_, p) :: ps => p.calls x + callsNamed x ps

end

/-- The calls of the helper `x` in a call, itself included. -/
def Call.calls (x : String) (c : Call) : Nat :=
  callsPlain x c.params + callsNamed x c.named + (if c.helper = x then 1 else 0)

/-- The calls of the helper `x` that a tag makes, unless it opens a block. -/
def Tag.calls (x : String) : Tag → Nat
  | .value p => p.calls x + p.calls x
  | .call c => c.calls x
  | _ => 0

/-- Whether a tag opens a block. -/
def Tag.opensBlock : Tag → Bool
  | .openBlock _ _ => true
  | _ => false

/-- The node that a tag writes, unless it belongs to a block. -/
def Tag.node? : Tag → Option Node
  | .value p => some (.value p)
  | .call c => some (.call c)
  | _ => none

/-! ## Helpers -/

/-- The helper `x` asks for values, and no other name calls it. -/
structure Mode.AsksBy (m : Mode) (x : String) : Prop where
  request : m.request? = some x
  named : x ≠ "helperMissing"

theorem builtin?_ne_request (y : String) : Helper.builtin? y ≠ some .request := by
  unfold Helper.builtin?
  split <;> simp

theorem asks_askFor (y : String) (as : List Arg) : (askFor y as).Asks 1 := by
  cases as with
  | nil => exact .fault _ _
  | cons a as =>
    rw [askFor]
    split
    · exact .ask fun _ => .done _
    · exact .ask fun _ => .done _
    · exact .fault _ _

section Helpers

variable {m : Mode} {x : String}

theorem Mode.AsksBy.called?_request (h : m.AsksBy x) : m.called? false x = some .request := by
  rw [Mode.called?, Mode.helper?, if_pos h.request]
  rfl

theorem Mode.AsksBy.called?_ne_request (h : m.AsksBy x) {y : String} (hy : y ≠ x) :
    m.called? false y ≠ some .request := by
  have hother {z : String} (hz : z ≠ x) : m.helper? z = Helper.builtin? z := by
    rw [Mode.helper?, h.request, if_neg (by simpa using hz.symm)]
  rw [Mode.called?, if_neg Bool.false_ne_true, hother hy, hother h.named.symm]
  -- no built-in helper is there for names that are none
  show (Helper.builtin? y).or none ≠ _
  rw [Option.or_none]
  exact builtin?_ne_request y

/-- A helper asks at most one question. -/
theorem asks_callHelper (h : m.AsksBy x) (y : String) (args : Args) :
    (callHelper m false y args).Asks (if y = x then 1 else 0) := by
  by_cases hy : y = x
  · rw [if_pos hy, hy, callHelper, h.called?_request]
    exact (asks_askFor x args.plain).andThen_zero fun _ => .done _
  · rw [if_neg hy, callHelper]
    split
    · exact .fault _ _
    · next helper hcalled =>
      cases helper with
      | request => exact absurd hcalled (h.called?_ne_request hy)
      | lookup => exact Dialogue.asks_ofExcept _
      | len => exact Dialogue.asks_ofExcept _
      | condition c => exact Dialogue.asks_ofExcept _
      | control c => exact Dialogue.asks_ofExcept _

mutual

theorem asks_evalParam (h : m.AsksBy x) (s : Scope) (p : Param) :
    (p.eval m s).Asks (p.calls x) := by
  match p with
  | .literal v =>
    rw [Param.eval, Param.calls]
    exact .done _
  | .path p =>
    rw [Param.eval, Param.calls]
    split
    · exact .done _
    · exact .fault _ _
  | .sub y params named =>
    rw [Param.eval, Param.calls, Nat.add_assoc]
    refine (asks_evalPlain h s params).andThen fun plain => ?_
    refine (asks_evalNamed h s named).andThen fun named => ?_
    exact (asks_callHelper h y _).andThen_zero fun _ => .done _

theorem asks_evalPlain (h : m.AsksBy x) (s : Scope) (ps : List Param) :
    (evalPlain m s ps).Asks (callsPlain x ps) := by
  match ps with
  | [] => exact .done _
  | p :: ps =>
    rw [evalPlain, callsPlain]
    refine (asks_evalParam h s p).andThen fun a => ?_
    exact (asks_evalPlain h s ps).andThen_zero fun _ => .done _

theorem asks_evalNamed (h : m.AsksBy x) (s : Scope) (ps : List (String × Param)) :
    (evalNamed m s ps).Asks (callsNamed x ps) := by
  match ps with
  | [] => exact .done _
  | (y, p) :: ps =>
    rw [evalNamed, callsNamed]
    refine (asks_evalParam h s p).andThen fun a => ?_
    exact (asks_evalNamed h s ps).andThen_zero fun _ => .done _

end

theorem asks_writeCall (h : m.AsksBy x) (y : String) (args : Args) :
    (writeCall m y args).Asks (if y = x then 1 else 0) :=
  (asks_callHelper h y args).andThen_zero fun _ => .done _

/-- Without a name the helper has nothing to ask for, so that it is a fault to call it. -/
theorem asks_writeCall_nil (h : m.AsksBy x) (y : String) : (writeCall m y ⟨[], []⟩).Asks 0 := by
  by_cases hy : y = x
  · rw [writeCall, callHelper, hy, h.called?_request]
    exact .fault _ _
  · have hasks := asks_writeCall h y ⟨[], []⟩
    rw [if_neg hy] at hasks
    exact hasks

theorem asks_writeFound (h : m.AsksBy x) (y : String) (v : Option Json) :
    (writeFound m y v).Asks 0 := by
  cases v with
  | some v => exact .done _
  | none =>
    rw [writeFound]
    split
    · exact .fault _ _
    · split
      · exact asks_writeCall_nil h y
      · exact .done _

theorem asks_writeValue (h : m.AsksBy x) (s : Scope) (p : Param) :
    (writeValue m s p).Asks (p.calls x + p.calls x) := by
  have twice : ((p.eval m s).andThen fun first => (p.eval m s).andThen fun second =>
      let name (a : Arg) := String.ofList a.value.display
      if (m.helper? (name first)).isSome then writeCall m (name second) ⟨[], []⟩
      else writeFound m (name second) second.value?).Asks (p.calls x + p.calls x) := by
    refine (asks_evalParam h s p).andThen fun first => ?_
    refine (asks_evalParam h s p).andThen_zero fun second => ?_
    dsimp only
    split
    · exact asks_writeCall_nil h _
    · exact asks_writeFound h _ _
  cases p with
  | literal v => exact twice
  | sub y params named => exact twice
  | path p =>
    rw [writeValue, Param.calls]
    split
    · exact asks_writeCall_nil h _
    · split
      · exact .fault _ _
      · exact asks_writeFound h _ _

theorem asks_evalCall (h : m.AsksBy x) (s : Scope) (c : Call) :
    (c.eval m s).Asks (callsPlain x c.params + callsNamed x c.named) := by
  refine (asks_evalPlain h s c.params).andThen fun plain => ?_
  exact (asks_evalNamed h s c.named).andThen_zero fun _ => .done _

/-! ## Templates without blocks -/

/-- A node that is no text and no block asks for what is called in its tag. -/
theorem asks_node (h : m.AsksBy x) {tag : Tag} {n : Node} (hn : tag.node? = some n) (s : Scope) :
    (n.render m s).Asks (tag.calls x) := by
  cases tag with
  | value p =>
    obtain rfl := Option.some.inj hn
    exact asks_writeValue h s p
  | call c =>
    obtain rfl := Option.some.inj hn
    rw [Node.render]
    exact (asks_evalCall h s c).andThen fun args => asks_writeCall h _ _
  | _ => cases hn

theorem calls_of_node?_eq_none {tag : Tag} (hn : tag.node? = none) : tag.calls x = 0 := by
  cases tag with
  | value p => cases hn
  | call c => cases hn
  | _ => rfl

/-- The calls of the helper `x` in some tags. -/
def tagCalls (x : String) (ms : List MarkedTag) : Nat :=
  (ms.map (·.tag.calls x)).sum

/-- A template without blocks asks for what is called in its tags. -/
theorem asks_flatNodes (h : m.AsksBy x) (ms : List MarkedTag) (s : Scope) :
    (renderNodes m (ms.filterMap (·.tag.node?)) s).Asks (tagCalls x ms) := by
  induction ms with
  | nil => exact .done _
  | cons t ms ih =>
    rw [tagCalls, List.map_cons, List.sum_cons, List.filterMap_cons]
    split
    · next hnone =>
      rw [calls_of_node?_eq_none hnone, Nat.zero_add]
      exact ih
    · next n hsome =>
      rw [renderNodes]
      exact (asks_node h hsome s).andThen fun u => ih.andThen_zero fun _ => .done _

end Helpers

/-- Outside of all blocks there is none to close, and none to begin the other part of. -/
theorem afterTag_nil {tag : Tag} (hflat : tag.opensBlock = false) {blocks : List OpenBlock}
    {back back' : List Node} (h : afterTag [] back tag = some (blocks, back')) :
    blocks = [] ∧ back' = tag.node?.toList ++ back := by
  cases tag with
  | value p =>
    obtain ⟨rfl, rfl⟩ := Prod.mk.inj (Option.some.inj h)
    exact ⟨rfl, rfl⟩
  | call c =>
    obtain ⟨rfl, rfl⟩ := Prod.mk.inj (Option.some.inj h)
    exact ⟨rfl, rfl⟩
  | comment =>
    obtain ⟨rfl, rfl⟩ := Prod.mk.inj (Option.some.inj h)
    exact ⟨rfl, rfl⟩
  | openBlock c xs => cases hflat
  | elseBlock c xs => cases h
  | otherwise => cases h
  | close name => cases h

/-- Tags that open no blocks are read as a row of values and calls. -/
theorem flatNodes_of_nest {ms : List MarkedTag} (hflat : ∀ t ∈ ms, t.tag.opensBlock = false)
    {back ns : List Node} (h : nest [] back (ms.map (.tag · false)) = some ns) :
    ns = back.reverse ++ ms.filterMap (·.tag.node?) := by
  induction ms generalizing back with
  | nil =>
    obtain rfl := Option.some.inj h
    rw [List.filterMap_nil, List.append_nil]
  | cons t ms ih =>
    rw [List.map_cons, nest_tag] at h
    obtain ⟨⟨blocks, back'⟩, hafter, hrest⟩ := Option.bind_eq_some_iff.1 h
    obtain ⟨rfl, rfl⟩ := afterTag_nil (hflat t List.mem_cons_self) hafter
    rw [ih (fun u hu => hflat u (List.mem_cons_of_mem _ hu)) hrest, List.filterMap_cons]
    cases t.tag.node? <;> simp

end CalcDoc.Template
