import CalcDoc.Template.Nesting

/-!
# What a tag does to open blocks

The nodes of a template are made piece by piece, with the blocks that are open as a stack. Text is
put on top; all else that can happen is said once, for one tag.

- `afterTag`, `nest_tag`: the open blocks and the nodes after one more tag.
- `nest_append`: what follows closed blocks is outside of them.
- `outermost`, `nest_back`: nodes outside of all blocks stay where they are.
-/

namespace CalcDoc.Template

/-- The open blocks and the nodes of the innermost part after one more tag. -/
def afterTag (blocks : List OpenBlock) (back : List Node) :
    Tag → Option (List OpenBlock × List Node)
  | .value p => some (blocks, .value p :: back)
  | .call c => some (blocks, .call c :: back)
  | .comment => some (blocks, back)
  | .openBlock c xs => some (⟨c, xs, none, back, false⟩ :: blocks, [])
  | .elseBlock c xs =>
    (beginOther blocks back.reverse).map fun blocks => (⟨c, xs, none, [], true⟩ :: blocks, [])
  | .otherwise => (beginOther blocks back.reverse).map fun blocks => (blocks, [])
  | .close name => (closeBlock name blocks back.reverse).map fun (back, blocks) => (blocks, back)

theorem nest_tag (blocks : List OpenBlock) (back : List Node) (m : MarkedTag) (alone : Bool)
    (ps : List Piece) : nest blocks back (.tag m alone :: ps) =
      (afterTag blocks back m.tag).bind fun (blocks, back) => nest blocks back ps := by
  rw [nest]
  cases m.tag with
  | value p => rfl
  | call c => rfl
  | comment => rfl
  | openBlock c xs => rfl
  | elseBlock c xs =>
    rw [afterTag]
    cases beginOther blocks back.reverse <;> rfl
  | otherwise =>
    rw [afterTag]
    cases beginOther blocks back.reverse <;> rfl
  | close name =>
    rw [afterTag]
    dsimp only
    cases closeBlock name blocks back.reverse <;> rfl

/-- What follows closed blocks is outside of them. -/
theorem nest_append {blocks : List OpenBlock} {back ns : List Node} {ps : List Piece}
    (h : nest blocks back ps = some ns) (qs : List Piece) :
    nest blocks back (ps ++ qs) = nest [] ns.reverse qs := by
  induction ps generalizing blocks back with
  | nil =>
    cases blocks with
    | nil =>
      obtain rfl := Option.some.inj h
      rw [List.nil_append, List.reverse_reverse]
    | cons b blocks => cases h
  | cons p ps ih =>
    cases p with
    | text t =>
      rw [nest] at h
      rw [List.cons_append, nest]
      exact ih h
    | tag m alone =>
      rw [nest_tag] at h
      obtain ⟨⟨blocks', back'⟩, hafter, hrest⟩ := Option.bind_eq_some_iff.1 h
      rw [List.cons_append, nest_tag, hafter]
      exact ih hrest

/-! ## Nodes outside of all blocks -/

/-- The nodes outside of all open blocks, the last one first. -/
def outermost : List OpenBlock → List Node → List Node
  | [], back => back
  | b :: blocks, _ => outermost blocks b.above

theorem suffix_outermost_cons (blocks : List OpenBlock) (n : Node) (back : List Node) :
    outermost blocks back <:+ outermost blocks (n :: back) := by
  cases blocks with
  | nil => exact List.suffix_cons n back
  | cons b blocks => exact List.suffix_rfl

theorem outermost_beginOther {blocks blocks' : List OpenBlock} {part : List Node}
    (h : beginOther blocks part = some blocks') (back back' : List Node) :
    outermost blocks' back' = outermost blocks back := by
  cases blocks with
  | nil => cases h
  | cons b blocks =>
    rw [beginOther] at h
    split at h
    · cases h
    · obtain rfl := Option.some.inj h
      rfl

/-- Closing a block may add it to the nodes outside of all blocks. -/
theorem suffix_outermost_closeBlock {name : Option String} {blocks blocks' : List OpenBlock}
    {part back' : List Node} (h : closeBlock name blocks part = some (back', blocks'))
    (back : List Node) : outermost blocks back <:+ outermost blocks' back' := by
  induction blocks generalizing part back with
  | nil => cases h
  | cons b blocks ih =>
    rw [closeBlock] at h
    split at h
    · exact ih h b.above
    · split at h
      · obtain ⟨rfl, rfl⟩ := Prod.mk.inj (Option.some.inj h)
        exact suffix_outermost_cons blocks _ b.above
      · cases h

/-- A tag leaves the nodes outside of all blocks where they are, and may add one. -/
theorem suffix_outermost_afterTag {blocks blocks' : List OpenBlock} {back back' : List Node}
    {tag : Tag} (h : afterTag blocks back tag = some (blocks', back')) :
    outermost blocks back <:+ outermost blocks' back' := by
  cases tag with
  | value p =>
    obtain ⟨rfl, rfl⟩ := Prod.mk.inj (Option.some.inj h)
    exact suffix_outermost_cons blocks _ back
  | call c =>
    obtain ⟨rfl, rfl⟩ := Prod.mk.inj (Option.some.inj h)
    exact suffix_outermost_cons blocks _ back
  | comment =>
    obtain ⟨rfl, rfl⟩ := Prod.mk.inj (Option.some.inj h)
    exact List.suffix_rfl
  | openBlock c xs =>
    obtain ⟨rfl, rfl⟩ := Prod.mk.inj (Option.some.inj h)
    exact List.suffix_rfl
  | elseBlock c xs =>
    obtain ⟨blocks', hother, hafter⟩ := Option.map_eq_some_iff.1 h
    obtain ⟨rfl, rfl⟩ := Prod.mk.inj hafter
    exact ⟨[], (outermost_beginOther hother back []).symm⟩
  | otherwise =>
    obtain ⟨blocks', hother, hafter⟩ := Option.map_eq_some_iff.1 h
    obtain ⟨rfl, rfl⟩ := Prod.mk.inj hafter
    exact ⟨[], (outermost_beginOther hother back []).symm⟩
  | close name =>
    obtain ⟨⟨back', blocks'⟩, hclose, hafter⟩ := Option.map_eq_some_iff.1 h
    obtain ⟨rfl, rfl⟩ := Prod.mk.inj hafter
    exact suffix_outermost_closeBlock hclose back

/-- Nodes outside of all blocks stay where they are. -/
theorem nest_back {blocks : List OpenBlock} {back ns : List Node} {ps : List Piece}
    (h : nest blocks back ps = some ns) : outermost blocks back <:+ ns.reverse := by
  induction ps generalizing blocks back with
  | nil =>
    cases blocks with
    | nil =>
      obtain rfl := Option.some.inj h
      rw [List.reverse_reverse]
      exact List.suffix_rfl
    | cons b blocks => cases h
  | cons p ps ih =>
    cases p with
    | text t =>
      rw [nest] at h
      exact (suffix_outermost_cons blocks _ back).trans (ih h)
    | tag m alone =>
      rw [nest_tag] at h
      obtain ⟨⟨blocks', back'⟩, hafter, hrest⟩ := Option.bind_eq_some_iff.1 h
      exact (suffix_outermost_afterTag hafter).trans (ih hrest)

end CalcDoc.Template
