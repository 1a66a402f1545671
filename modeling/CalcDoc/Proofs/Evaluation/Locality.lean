import CalcDoc.Script.Evaluation

/-!
# Programs act locally

What a program does depends on the values of the names that occur in it and on nothing else, and it
leaves alone every name that it neither assigns nor deletes. Both hold of runs that come to their
end and of runs that fail part-way.

- `Expr.names`, `Action.names`, `Program.names`: the names that occur.
- `Action.target?`, `Program.targets`: the names that are assigned or deleted.
- `AgreeOn`: two namespaces give some names the same values.
- `AgreeOn.eval`, `AgreeOn.action`, `AgreeOn.run`: what namespaces that agree do alike, by induction
  over expressions and statements.
- `get?_of_action`, `get?_run`: what stays as it was.
- `Program.run_local`: both together.
-/

namespace CalcDoc.Script

/-! ## The names that occur in a program -/

mutual

/-- The names that an expression reads, from left to right. What is called is none of them. -/
def Expr.names : Expr → List String
  | .literal _ => []
  | .name x => [x]
  | .sign _ e | .not e => e.names
  | .arith _ l r | .compare _ l r | .and l r | .or l r => l.names ++ r.names
  | .call _ args => Expr.namesOf args

/-- The names that some expressions read. -/
def Expr.namesOf : List Expr → List String
  | [] => []
  | e :: es => e.names ++ Expr.namesOf es

end

/-- The name that an action assigns or deletes. -/
def Action.target? : Action → Option String
  | .assign x _ | .augment x _ _ | .delete x => some x
  | .eval _ => none

/-- The names that occur in an action. -/
def Action.names : Action → List String
  | .assign x e | .augment x _ e => x :: e.names
  | .delete x => [x]
  | .eval e => e.names

/-- The names that occur in a program. -/
def Program.names (p : Program) : List String :=
  p.flatMap fun s => s.action.names

/-- The names that a program assigns or deletes. -/
def Program.targets (p : Program) : List String :=
  p.filterMap fun s => s.action.target?

/-! ## Namespaces that agree -/

/-- Two namespaces give each of some names the same value, or both give it none. -/
def AgreeOn (xs : List String) (s t : Namespace) : Prop :=
  ∀ x ∈ xs, Table.get? s x = Table.get? t x

/-- Two runs end with namespaces that agree, or with the same error. -/
def EndAlike (xs : List String) : Except Error Namespace → Except Error Namespace → Prop
  | .ok s, .ok t => AgreeOn xs s t
  | .error err, .error err' => err = err'
  | _, _ => False

/-- No run comes to its end if one that ends alike fails. -/
theorem EndAlike.cases {xs : List String} {a b : Except Error Namespace} (h : EndAlike xs a b) :
    (∃ s t, a = .ok s ∧ b = .ok t ∧ AgreeOn xs s t) ∨ ∃ err, a = .error err ∧ b = .error err := by
  cases a with
  | ok s =>
    cases b with
    | ok t => exact .inl ⟨s, t, rfl, rfl, h⟩
    | error _ => exact h.elim
  | error err =>
    cases b with
    | ok _ => exact h.elim
    | error err' =>
      obtain rfl : err = err' := h
      exact .inr ⟨err, rfl, rfl⟩

namespace AgreeOn

variable {xs ys : List String} {s t : Namespace}

theorem mono (h : AgreeOn xs s t) (hys : ys ⊆ xs) : AgreeOn ys s t := by
  intro x hx
  exact h x (hys hx)

theorem of_append (h : AgreeOn (xs ++ ys) s t) : AgreeOn xs s t ∧ AgreeOn ys s t :=
  ⟨h.mono (List.subset_append_left xs ys), h.mono (List.subset_append_right xs ys)⟩

theorem read (h : AgreeOn xs s t) {x : String} (hx : x ∈ xs) :
    Namespace.read s x = Namespace.read t x := by
  rw [Namespace.read, Namespace.read, h x hx]

theorem insert (h : AgreeOn xs s t) (x : String) (v : Value) :
    AgreeOn xs (Table.insert s x v) (Table.insert t x v) := by
  intro y hy
  rw [Table.get?_insert, Table.get?_insert, h y hy]

theorem erase (h : AgreeOn xs s t) (x : String) :
    AgreeOn xs (Table.erase s x) (Table.erase t x) := by
  intro y hy
  rw [Table.get?_erase, Table.get?_erase, h y hy]

mutual

/-- An expression has the same value, or fails with the same error. -/
theorem eval : ∀ e : Expr, AgreeOn e.names s t → e.eval s = e.eval t
  | .literal v, _ => by rw [Expr.eval, Expr.eval]
  | .name x, h => by
    rw [Expr.eval, Expr.eval]
    exact h.read (List.mem_singleton_self x)
  | .sign op e, h => by rw [Expr.eval, Expr.eval, eval e h]
  | .not e, h => by rw [Expr.eval, Expr.eval, eval e h]
  | .arith op l r, h => by
    obtain ⟨hl, hr⟩ := of_append h
    rw [Expr.eval, Expr.eval, eval l hl, eval r hr]
  | .compare op l r, h => by
    obtain ⟨hl, hr⟩ := of_append h
    rw [Expr.eval, Expr.eval, eval l hl, eval r hr]
  | .and l r, h => by
    obtain ⟨hl, hr⟩ := of_append h
    rw [Expr.eval, Expr.eval, eval l hl, eval r hr]
  | .or l r, h => by
    obtain ⟨hl, hr⟩ := of_append h
    rw [Expr.eval, Expr.eval, eval l hl, eval r hr]
  | .call f args, h => by rw [Expr.eval, Expr.eval, evalAll args h]

/-- So have some expressions. -/
theorem evalAll : ∀ es : List Expr, AgreeOn (Expr.namesOf es) s t →
    Expr.evalAll s es = Expr.evalAll t es
  | [], _ => by rw [Expr.evalAll, Expr.evalAll]
  | e :: es, h => by
    obtain ⟨he, hes⟩ := of_append h
    rw [Expr.evalAll, Expr.evalAll, eval e he, evalAll es hes]

end

/-- An action leaves namespaces that agree on as many names as before, if its own are among them. -/
theorem action (h : AgreeOn xs s t) (a : Action) (ha : a.names ⊆ xs) :
    EndAlike xs (a.run s) (a.run t) := by
  cases a with
  | assign x e =>
    have he : e.eval s = e.eval t := eval e (h.mono (List.subset_of_cons_subset ha))
    rw [Action.run, Action.run, he]
    cases e.eval t with
    | ok v => exact h.insert x v
    | error err => rfl
  | augment x op e =>
    have hx : Namespace.read s x = Namespace.read t x := h.read (ha List.mem_cons_self)
    have he : e.eval s = e.eval t := eval e (h.mono (List.subset_of_cons_subset ha))
    rw [Action.run, Action.run, hx, he]
    cases Namespace.read t x with
    | error err => rfl
    | ok a =>
      cases e.eval t with
      | error err => rfl
      | ok b =>
        dsimp only
        cases a.arith op b with
        | ok v => exact h.insert x v
        | error err => rfl
  | delete x =>
    rw [Action.run, Action.run, h.read (ha List.mem_cons_self)]
    cases Namespace.read t x with
    | ok _ => exact h.erase x
    | error err => rfl
  | eval e =>
    rw [Action.run, Action.run, eval e (h.mono ha)]
    cases e.eval t with
    | ok _ => exact h
    | error err => rfl

/-- A program ends in the same way, and leaves namespaces that agree on as many names as before. The
names are those of the whole program, since each statement hands its namespace on to the next. -/
theorem run (h : AgreeOn xs s t) (p : Program) (hp : p.names ⊆ xs) :
    (p.run s).error? = (p.run t).error? ∧ AgreeOn xs (p.run s).names (p.run t).names := by
  induction p generalizing s t with
  | nil => exact ⟨rfl, h⟩
  | cons st p ih =>
    obtain ⟨hst, hp⟩ := List.append_subset.1 hp
    rw [Program.run, Program.run]
    rcases (h.action st.action hst).cases with ⟨s', t', hs, ht, hagree⟩ | ⟨err, hs, ht⟩
    · rw [hs, ht]
      exact ih hagree hp
    · rw [hs, ht]
      exact ⟨rfl, h⟩

end AgreeOn

/-! ## What stays as it was -/

/-- An action changes no name but the one that it assigns or deletes. -/
theorem get?_of_action {a : Action} {s s' : Namespace} (h : a.run s = .ok s') {x : String}
    (hx : a.target? ≠ some x) : Table.get? s' x = Table.get? s x := by
  -- a change of the target is one of another name
  have other {y : String} (hy : some y ≠ some x) : x ≠ y := by
    rintro rfl
    exact hy rfl
  cases a with
  | assign y e =>
    rw [Action.run] at h
    split at h
    · cases h
      rw [Table.get?_insert, if_neg (other hx)]
    · cases h
  | augment y op e =>
    rw [Action.run] at h
    split at h
    · cases h
    · split at h
      · cases h
      · split at h
        · cases h
          rw [Table.get?_insert, if_neg (other hx)]
        · cases h
  | delete y =>
    rw [Action.run] at h
    split at h
    · cases h
      rw [Table.get?_erase, if_neg (other hx)]
    · cases h
  | eval e =>
    rw [Action.run] at h
    split at h
    · cases h
      rfl
    · cases h

/-- A program changes no name that it neither assigns nor deletes, however far it comes. -/
theorem get?_run (p : Program) (s : Namespace) {x : String} (hx : x ∉ p.targets) :
    Table.get? (p.run s).names x = Table.get? s x := by
  induction p generalizing s with
  | nil => rfl
  | cons st p ih =>
    have htarget : st.action.target? ≠ some x := by
      intro h
      exact hx (List.mem_filterMap.2 ⟨st, List.mem_cons_self, h⟩)
    have hp : x ∉ Program.targets p := by
      intro h
      obtain ⟨st', hst', hx'⟩ := List.mem_filterMap.1 h
      exact hx (List.mem_filterMap.2 ⟨st', List.mem_cons_of_mem st hst', hx'⟩)
    rw [Program.run]
    cases hs : st.action.run s with
    | ok s' => exact (ih s' hp).trans (get?_of_action hs htarget)
    | error err => rfl

/-! ## Locality -/

/-- Two namespaces that agree on the names of a program make it end in the same way, and agree on
these names afterwards too; and each has kept what the program neither assigns nor deletes. -/
theorem Program.run_local {p : Program} {s t : Namespace} (h : AgreeOn p.names s t) :
    (p.run s).error? = (p.run t).error? ∧
      AgreeOn p.names (p.run s).names (p.run t).names ∧
      ∀ x ∉ p.targets,
        Table.get? (p.run s).names x = Table.get? s x ∧
        Table.get? (p.run t).names x = Table.get? t x := by
  obtain ⟨herror, hnames⟩ := h.run p (List.Subset.refl p.names)
  refine ⟨herror, hnames, ?_⟩
  intro x hx
  exact ⟨get?_run p s hx, get?_run p t hx⟩

/-- A program that fails at its second statement, since `b` has no value. -/
def failsAtSecond : Program :=
  [⟨1, .assign "x" (.name "a")⟩, ⟨2, .augment "x" .add (.name "b")⟩, ⟨3, .delete "a"⟩]

/-- It fails alike whether `z` has a value or not, with `x` assigned, and leaves `z` as it was. -/
theorem Program.run_local_of_failing :
    AgreeOn failsAtSecond.names [("a", .bool true), ("z", .absent)] [("a", .bool true)] ∧
      (failsAtSecond.run [("a", .bool true), ("z", .absent)]).error? =
        (failsAtSecond.run [("a", .bool true)]).error? ∧
      AgreeOn failsAtSecond.names
        (failsAtSecond.run [("a", .bool true), ("z", .absent)]).names
        (failsAtSecond.run [("a", .bool true)]).names ∧
      Table.get? (failsAtSecond.run [("a", .bool true), ("z", .absent)]).names "z" =
        some .absent ∧
      Table.get? (failsAtSecond.run [("a", .bool true)]).names "z" = none := by
  have hnames : failsAtSecond.names = ["x", "a", "x", "b", "a"] := rfl
  have hagree : AgreeOn failsAtSecond.names [("a", .bool true), ("z", .absent)]
      [("a", .bool true)] := by
    intro x hx
    simp only [hnames, List.mem_cons, List.not_mem_nil, or_false] at hx
    rcases hx with rfl | rfl | rfl | rfl | rfl <;> rfl
  obtain ⟨herror, hafter, hkept⟩ := Program.run_local hagree
  obtain ⟨hz, hz'⟩ := hkept "z" (by decide)
  exact ⟨hagree, herror, hafter, hz, hz'⟩

end CalcDoc.Script
