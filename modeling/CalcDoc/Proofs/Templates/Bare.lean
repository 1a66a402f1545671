import CalcDoc.Proofs.Templates.Nesting
import CalcDoc.Proofs.Templates.Outline
import CalcDoc.Template.Rendering

/-!
# Templates without their text

What a template asks for depends on its tags alone. The text between them is written as it stands,
and asks for nothing.

- `bareNodes`: the nodes of a template without its text.
- `bareNodes_ofText?`: they are read from the tags of the text alone.
- `Dialogue.forget`: a dialogue without its result.
- `forget_renderNodes`: a template asks what its nodes ask without the text.
-/

namespace CalcDoc.Template

mutual

/-- A node without the text in it, unless it is text itself. -/
def Node.bare? : Node → Option Node
  | .text _ => none
  | .value p => some (.value p)
  | .call c => some (.call c)
  | .block c xs body other => some (.block c xs (bareNodes body) (bareOther other))

/-- Some nodes without the text among them and in them. -/
def bareNodes : List Node → List Node
  | [] => []
  | n :: ns =>
    match n.bare? with
    | none => bareNodes ns
    | some n => n :: bareNodes ns

/-- The same for the other part of a block. -/
def bareOther : Option (List Node) → Option (List Node)
  | none => none
  | some ns => some (bareNodes ns)

end

theorem bareNodes_eq_filterMap (ns : List Node) : bareNodes ns = ns.filterMap Node.bare? := by
  induction ns with
  | nil => rw [bareNodes, List.filterMap_nil]
  | cons n ns ih =>
    rw [bareNodes, List.filterMap_cons, ih]
    cases n.bare? <;> rfl

theorem bareNodes_reverse (ns : List Node) : bareNodes ns.reverse = (bareNodes ns).reverse := by
  rw [bareNodes_eq_filterMap, bareNodes_eq_filterMap, List.filterMap_reverse]

theorem bareOther_eq_map (other : Option (List Node)) : bareOther other = other.map bareNodes := by
  cases other <;> rw [bareOther] <;> rfl

theorem bareNodes_text (t : Text) (ns : List Node) : bareNodes (.text t :: ns) = bareNodes ns := by
  rw [bareNodes, Node.bare?]

theorem bareNodes_cons {n n' : Node} (h : n.bare? = some n') (ns : List Node) :
    bareNodes (n :: ns) = n' :: bareNodes ns := by
  rw [bareNodes, h]

theorem bareNodes_value (p : Param) (ns : List Node) :
    bareNodes (.value p :: ns) = .value p :: bareNodes ns :=
  bareNodes_cons rfl ns

theorem bareNodes_call (c : Call) (ns : List Node) :
    bareNodes (.call c :: ns) = .call c :: bareNodes ns :=
  bareNodes_cons rfl ns

/-! ## Reading -/

/-- The tags among some pieces. -/
def pieceTags : List Piece → List MarkedTag
  | [] => []
  | .text _ :: ps => pieceTags ps
  | .tag m _ :: ps => m :: pieceTags ps

/-- The template of some tags without text. -/
def ofTags? (ms : List MarkedTag) : Option Template :=
  nest [] [] (ms.map (.tag · false))

theorem pieceTags_textBefore (t : Text) (ps : List Piece) :
    pieceTags (Piece.textBefore t ps) = pieceTags ps := by
  rw [Piece.textBefore]
  split <;> rfl

theorem pieceTags_trimPieces (trims line : Bool) (ps : List Piece) :
    pieceTags (trimPieces trims line ps) = pieceTags ps := by
  induction ps generalizing trims line with
  | nil => rfl
  | cons p ps ih =>
    cases p with
    | text t => exact ih _ _
    | tag m alone => exact congrArg (m :: ·) (ih _ _)

theorem pieceTags_piecesOf (lastSource last : Text) (blank : Bool) (ss : List Stretch) :
    pieceTags (piecesOf lastSource last blank ss) = ss.map Stretch.tag := by
  induction ss generalizing blank with
  | nil => rw [piecesOf, pieceTags_textBefore]; rfl
  | cons s ss ih =>
    rw [piecesOf, pieceTags_textBefore, pieceTags, ih, List.map_cons]

/-- An open block without the text in it. -/
def OpenBlock.bare (b : OpenBlock) : OpenBlock :=
  { b with body? := b.body?.map bareNodes, above := bareNodes b.above }

theorem OpenBlock.bare?_node (b : OpenBlock) (part : List Node) :
    (b.node part).bare? = some (b.bare.node (bareNodes part)) := by
  unfold OpenBlock.node OpenBlock.bare
  cases b.body? <;> simp [Node.bare?, bareOther]

theorem closeBlock_bare (name : Option String) (blocks : List OpenBlock) (part : List Node) :
    closeBlock name (blocks.map OpenBlock.bare) (bareNodes part) =
      (closeBlock name blocks part).map fun (back, blocks) =>
        (bareNodes back, blocks.map OpenBlock.bare) := by
  induction blocks generalizing part with
  | nil => rfl
  | cons b blocks ih =>
    rw [List.map_cons, closeBlock, closeBlock]
    show (if b.chained then _ else _) = _
    split
    · rw [← ih, bareNodes_cons (b.bare?_node part), bareNodes]
    · show (if name = some b.call.helper then _ else _) = _
      split
      · rw [Option.map_some]
        dsimp only
        rw [bareNodes_cons (b.bare?_node part)]
        rfl
      · rfl

theorem beginOther_bare (blocks : List OpenBlock) (part : List Node) :
    beginOther (blocks.map OpenBlock.bare) (bareNodes part) =
      (beginOther blocks part).map (List.map OpenBlock.bare) := by
  cases blocks with
  | nil => rfl
  | cons b blocks =>
    rw [List.map_cons, beginOther, beginOther]
    show (if (b.body?.map bareNodes).isSome then _ else _) = _
    rw [Option.isSome_map]
    split <;> rfl

/-- A tag does the same to open blocks without the text in them. -/
theorem afterTag_bare (blocks : List OpenBlock) (back : List Node) (tag : Tag) :
    afterTag (blocks.map OpenBlock.bare) (bareNodes back) tag =
      (afterTag blocks back tag).map fun (blocks, back) =>
        (blocks.map OpenBlock.bare, bareNodes back) := by
  cases tag with
  | value p =>
    show _ = some (_, bareNodes (.value p :: back))
    rw [bareNodes_value]
    rfl
  | call c =>
    show _ = some (_, bareNodes (.call c :: back))
    rw [bareNodes_call]
    rfl
  | comment => rfl
  | openBlock c xs => rfl
  | elseBlock c xs =>
    rw [afterTag, afterTag, ← bareNodes_reverse, beginOther_bare]
    cases beginOther blocks back.reverse <;> rfl
  | otherwise =>
    rw [afterTag, afterTag, ← bareNodes_reverse, beginOther_bare]
    cases beginOther blocks back.reverse <;> rfl
  | close name =>
    rw [afterTag, afterTag, ← bareNodes_reverse, closeBlock_bare]
    cases closeBlock name blocks back.reverse <;> rfl

/-- The nodes of some pieces come without text from the tags among them alone. -/
theorem bareNodes_nest (blocks : List OpenBlock) (back : List Node) (ps : List Piece) :
    (nest blocks back ps).map bareNodes =
      nest (blocks.map OpenBlock.bare) (bareNodes back) ((pieceTags ps).map (.tag · false)) := by
  induction ps generalizing blocks back with
  | nil =>
    cases blocks with
    | nil =>
      show some (bareNodes back.reverse) = some (bareNodes back).reverse
      rw [bareNodes_reverse]
    | cons b blocks => rfl
  | cons p ps ih =>
    cases p with
    | text t => rw [nest, ih, bareNodes_text, pieceTags]
    | tag m alone =>
      rw [pieceTags, List.map_cons, nest_tag, nest_tag, afterTag_bare]
      cases afterTag blocks back m.tag with
      | none => rfl
      | some r => exact ih r.1 r.2

/-- Without its text a template is read from the tags of its source alone. -/
theorem bareNodes_ofText? (t : Text) :
    (Template.ofText? t).map bareNodes = (outline? t).bind fun l => ofTags? l.tags := by
  rw [Template.ofText?, readPieces_outline true (Nat.lt_succ_self _)]
  cases outline? t with
  | none => rfl
  | some l =>
    rw [Option.map_some, Option.bind_some, Option.bind_some, bareNodes_nest, pieceTags_trimPieces,
      Outline.pieces, pieceTags_piecesOf, bareNodes]
    rfl

/-- A text that is a template has an outline. -/
theorem exists_outline_of_ofText? {t : Text} {template : Template}
    (h : Template.ofText? t = some template) :
    ∃ l, outline? t = some l ∧ ofTags? l.tags = some (bareNodes template) := by
  have hread := bareNodes_ofText? t
  rw [h] at hread
  exact Option.bind_eq_some_iff.1 hread.symm

/-! ## Rendering -/

namespace Dialogue

variable {α β : Type}

/-- The dialogue without its result: it asks the same. -/
def forget (d : Dialogue α) : Dialogue Unit :=
  d.andThen fun _ => .done ()

theorem forget_andThen (d : Dialogue α) (k : α → Dialogue β) :
    (d.andThen k).forget = d.andThen fun a => (k a).forget :=
  andThen_assoc d k _

/-- The result may be made into another. -/
theorem forget_andThen_done (d : Dialogue α) (f : α → β) :
    (d.andThen fun a => .done (f a)).forget = d.forget :=
  forget_andThen d _

/-- What follows a dialogue may not look at its result. -/
theorem forget_andThen_const (d : Dialogue α) {k : α → Dialogue β} {e : Dialogue Unit}
    (h : ∀ a, (k a).forget = e) : (d.andThen k).forget = d.forget.andThen fun _ => e := by
  rw [forget_andThen, funext h, forget, andThen_assoc]
  rfl

/-- A dialogue and the same one without its result leave the same state. -/
theorem run_forget {σ ε : Type} (answer : σ → String → Except ε String × σ) (d : Dialogue α)
    (s : σ) : d.forget.run answer s = ((d.run answer s).1.map fun _ => (), (d.run answer s).2) := by
  rw [forget, run_andThen]
  rcases d.run answer s with ⟨r, t⟩
  cases r <;> rfl

end Dialogue

theorem forget_renderNodes_cons (m : Mode) (n : Node) (ns : List Node) (s : Scope) :
    (renderNodes m (n :: ns) s).forget =
      (n.render m s).forget.andThen fun _ => (renderNodes m ns s).forget := by
  rw [renderNodes]
  exact Dialogue.forget_andThen_const _ fun _ => Dialogue.forget_andThen_done _ _

/-- Dialogues that ask the same one by one ask the same in a row. -/
theorem forget_joinTexts {α : Type} {f g : α → Dialogue Text} (as : List α)
    (h : ∀ a, (f a).forget = (g a).forget) :
    (joinTexts (as.map f)).forget = (joinTexts (as.map g)).forget := by
  induction as with
  | nil => rfl
  | cons a as ih =>
    have hjoin (f : α → Dialogue Text) : (joinTexts ((a :: as).map f)).forget =
        (f a).forget.andThen fun _ => (joinTexts (as.map f)).forget :=
      Dialogue.forget_andThen_const _ fun _ => Dialogue.forget_andThen_done _ _
    rw [hjoin f, hjoin g, h, ih]

/-- What a node asks for, if there is one. -/
def askedBy (m : Mode) (n? : Option Node) (s : Scope) : Dialogue Unit :=
  match n? with
  | none => .done ()
  | some n => (n.render m s).forget

theorem forget_bareNodes_cons (m : Mode) (n : Node) (ns : List Node) (s : Scope) :
    (renderNodes m (bareNodes (n :: ns)) s).forget =
      (askedBy m n.bare? s).andThen fun _ => (renderNodes m (bareNodes ns) s).forget := by
  cases h : n.bare? with
  | none =>
    rw [bareNodes, h]
    rfl
  | some n' =>
    rw [bareNodes_cons h, forget_renderNodes_cons]
    rfl

/-- What the other part of a block renders; without one it is nothing. -/
def renderOther (m : Mode) (s : Scope) : Option (List Node) → Dialogue Text
  | some ns => renderNodes m ns s
  | none => .done []

theorem render_block (m : Mode) (c : Call) (xs : List String) (body : List Node)
    (other : Option (List Node)) (s : Scope) :
    Node.render m (.block c xs body other) s = (c.eval m s).andThen fun args =>
      (openBlock m s c.helper xs other.isSome args).andThen fun
        | .text t => .done t
        | .parts (.body scopes) => joinTexts (scopes.map fun s => renderNodes m body s)
        | .parts .otherwise => renderOther m s other := by
  cases other <;> rw [Node.render] <;> rfl

mutual

/-- A node asks for what it asks for without the text in it. -/
theorem forget_render (m : Mode) (n : Node) (s : Scope) :
    (n.render m s).forget = askedBy m n.bare? s := by
  match n with
  | .text t => rfl
  | .value p => rfl
  | .call c => rfl
  | .block c xs body other =>
    show _ = (Node.render m (.block c xs (bareNodes body) (bareOther other)) s).forget
    have hsome : (bareOther other).isSome = other.isSome := by
      rw [bareOther_eq_map, Option.isSome_map]
    rw [render_block, render_block, Dialogue.forget_andThen, Dialogue.forget_andThen, hsome]
    congr 1
    funext args
    rw [Dialogue.forget_andThen, Dialogue.forget_andThen]
    congr 1
    funext opened
    match opened, other with
    | .text t, _ => rfl
    | .parts (.body scopes), _ => exact forget_joinTexts scopes (forget_renderNodes m body)
    | .parts .otherwise, none => rfl
    | .parts .otherwise, some nodes => exact forget_renderNodes m nodes s

/-- A template asks for what its nodes ask for without the text among them. -/
theorem forget_renderNodes (m : Mode) (ns : List Node) (s : Scope) :
    (renderNodes m ns s).forget = (renderNodes m (bareNodes ns) s).forget := by
  match ns with
  | [] => rfl
  | n :: ns =>
    rw [forget_renderNodes_cons, forget_bareNodes_cons, forget_render m n s,
      forget_renderNodes m ns s]

end

end CalcDoc.Template
