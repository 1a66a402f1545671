import CalcDoc.Proofs.Documents.Parts

/-!
# The one way to take a document apart

The markers leave no choice: a text is made of one row of parts at most. What a segmentation says
about its text can so be said about these parts, and each block by where it stands among them.

- `Markers.Admits.unique`: rows of parts with the same lines are the same.
- `blocksOf_append`: the blocks of a row of parts that stands below another.
- `segment_decomposes`: a segmentation loses, repeats and misplaces nothing of its text.
-/

namespace CalcDoc

/-- Whether a part is a code block. -/
def Part.isCode {α : Type} : Part α → Bool
  | .code _ _ _ => true
  | _ => false

/-! ## Uniqueness -/

/-- A row is cut in one way only at its first line with a property. -/
theorem append_cons_inj_of_first {p : Text → Bool} {as bs as' bs' : List Text} {c c' : Text}
    (has : ∀ l ∈ as, p l = false) (hc : p c) (has' : ∀ l ∈ as', p l = false) (hc' : p c')
    (h : as ++ c :: bs = as' ++ c' :: bs') : as = as' ∧ c = c' ∧ bs = bs' := by
  induction as generalizing as' with
  | nil =>
    cases as' with
    | nil =>
      obtain ⟨rfl, rfl⟩ := List.cons.inj h
      exact ⟨rfl, rfl, rfl⟩
    | cons a' as' =>
      obtain ⟨rfl, -⟩ := List.cons.inj h
      rw [has' _ List.mem_cons_self] at hc
      cases hc
  | cons a as ih =>
    cases as' with
    | nil =>
      obtain ⟨rfl, -⟩ := List.cons.inj h
      rw [has _ List.mem_cons_self] at hc'
      cases hc'
    | cons a' as' =>
      obtain ⟨rfl, hrest⟩ := List.cons.inj h
      obtain ⟨rfl, rfl, rfl⟩ := ih (fun l hl => has l (List.mem_cons_of_mem _ hl))
        (fun l hl => has' l (List.mem_cons_of_mem _ hl)) hrest
      exact ⟨rfl, rfl, rfl⟩

section Uniqueness

variable {m : Markers} {parts parts' : List (Part Text)}

theorem flatMap_lines_code (opening : Text) (body : List Text) (closing : Text) :
    (Part.code opening body closing :: parts).flatMap Part.lines =
      opening :: (body ++ closing :: parts.flatMap Part.lines) := by
  simp [Part.lines]

/-- A listing ends where its lines say it. -/
theorem ListingBody.unique {body body' : List Text} (h : ListingBody m body parts)
    (h' : ListingBody m body' parts')
    (hlines : body ++ parts.flatMap Part.lines = body' ++ parts'.flatMap Part.lines) :
    body = body' ∧ parts.flatMap Part.lines = parts'.flatMap Part.lines := by
  rcases h with ⟨inside, closing, rfl, hinside, hclosing⟩ | ⟨rfl, hbody⟩
  · rcases h' with ⟨inside', closing', rfl, hinside', hclosing'⟩ | ⟨rfl, hbody'⟩
    · rw [List.append_assoc, List.append_assoc] at hlines
      obtain ⟨rfl, rfl, hrest⟩ :=
        append_cons_inj_of_first hinside hclosing hinside' hclosing' hlines
      exact ⟨rfl, hrest⟩
    · -- the one listing goes on to the end of the text, over the close marker of the other
      rw [List.flatMap_nil, List.append_nil] at hlines
      rw [hbody' closing (by rw [← hlines]; simp)] at hclosing
      cases hclosing
  · rw [List.flatMap_nil, List.append_nil] at hlines
    rcases h' with ⟨inside', closing', rfl, hinside', hclosing'⟩ | ⟨rfl, hbody'⟩
    · rw [hbody closing' (by rw [hlines]; simp)] at hclosing'
      cases hclosing'
    · rw [List.flatMap_nil, List.append_nil] at hlines
      exact ⟨hlines, rfl⟩

/-- Rows of parts with the same lines are the same. The first line of a part says of which kind it
is. -/
theorem Markers.Admits.unique (h : m.Admits parts) (h' : m.Admits parts')
    (hlines : parts.flatMap Part.lines = parts'.flatMap Part.lines) : parts = parts' := by
  induction h generalizing parts' with
  | nil =>
    cases h' with
    | nil => rfl
    | plain => cases hlines
    | listing => cases hlines
    | code => cases hlines
  | @plain line parts hopens hcloses _ ih =>
    cases h' with
    | nil => cases hlines
    | plain _ _ hparts' =>
      obtain ⟨rfl, hrest⟩ := List.cons.inj hlines
      rw [ih hparts' hrest]
    | listing _ hcloses' =>
      obtain ⟨rfl, -⟩ := List.cons.inj hlines
      rw [hcloses] at hcloses'
      cases hcloses'
    | code hopens' =>
      obtain ⟨rfl, -⟩ := List.cons.inj hlines
      rw [hopens] at hopens'
      cases hopens'
  | @listing opening body parts hopens hcloses _ hbody _ ih =>
    cases h' with
    | nil => cases hlines
    | plain _ hcloses' =>
      obtain ⟨rfl, -⟩ := List.cons.inj hlines
      rw [hcloses'] at hcloses
      cases hcloses
    | listing _ _ _ hbody' hparts' =>
      obtain ⟨rfl, hbelow⟩ := List.cons.inj hlines
      obtain ⟨rfl, hrest⟩ := hbody.unique hbody' hbelow
      rw [ih hparts' hrest]
    | code hopens' =>
      obtain ⟨rfl, -⟩ := List.cons.inj hlines
      rw [hopens] at hopens'
      cases hopens'
  | @code opening body closing parts hopens hbody hclosing _ ih =>
    cases h' with
    | nil => cases hlines
    | plain hopens' =>
      obtain ⟨rfl, -⟩ := List.cons.inj hlines
      rw [hopens'] at hopens
      cases hopens
    | listing hopens' =>
      obtain ⟨rfl, -⟩ := List.cons.inj hlines
      rw [hopens'] at hopens
      cases hopens
    | code _ hbody' hclosing' hparts' =>
      rw [flatMap_lines_code, flatMap_lines_code] at hlines
      obtain ⟨rfl, hbelow⟩ := List.cons.inj hlines
      obtain ⟨rfl, rfl, hrest⟩ :=
        append_cons_inj_of_first hbody hclosing hbody' hclosing' hbelow
      rw [ih hparts' hrest]

end Uniqueness

/-! ## Where the blocks stand -/

section Blocks

variable {helper : Text} {n index references : Nat}

/-- The blocks of a row of parts, and those of another below it. -/
theorem blocksOf_append (above below : List (Part Text)) :
    blocksOf helper n index references (above ++ below) =
      blocksOf helper n index references above ++
        blocksOf helper (n + (above.flatMap Part.lines).length) (index + above.countP Part.isCode)
          (references + referencesOn helper (above.flatMap Part.prose)) below := by
  induction above generalizing n index references with
  | nil => rfl
  | cons part above ih =>
    have prose (hcode : part.isCode = false) (hlines : part.lines = part.prose)
        (hblocks : ∀ parts, blocksOf helper n index references (part :: parts) =
          blocksOf helper (n + part.prose.length) index
            (references + referencesOn helper part.prose) parts) :
        blocksOf helper n index references (part :: above ++ below) =
          blocksOf helper n index references (part :: above) ++
            blocksOf helper (n + ((part :: above).flatMap Part.lines).length)
              (index + (part :: above).countP Part.isCode)
              (references + referencesOn helper ((part :: above).flatMap Part.prose)) below := by
      rw [List.cons_append, hblocks, hblocks, ih, List.flatMap_cons, List.flatMap_cons,
        List.length_append, referencesOn_append, hlines, Nat.add_assoc n, Nat.add_assoc references,
        List.countP_cons_of_neg (by rw [hcode]; exact Bool.false_ne_true)]
    cases part with
    | plain line => exact prose rfl rfl fun _ => rfl
    | listing opening body => exact prose rfl rfl fun _ => rfl
    | code opening body closing =>
      have hlength : (Part.lines (.code opening body closing)).length = body.length + 2 := by
        simp [Part.lines]
      rw [List.cons_append, blocksOf, blocksOf, ih, List.cons_append, List.flatMap_cons,
        List.flatMap_cons, List.length_append, hlength, List.countP_cons_of_pos rfl,
        Nat.add_assoc n body.length, Nat.add_assoc n, Nat.add_assoc index, Nat.add_comm 1]
      rfl

theorem length_blocksOf_eq (parts : List (Part Text)) :
    (blocksOf helper n index references parts).length = parts.countP Part.isCode := by
  induction parts generalizing n index references with
  | nil => rfl
  | cons part parts ih =>
    cases part with
    | plain line => exact ih
    | listing opening body => exact ih
    | code opening body closing =>
      rw [blocksOf, List.length_cons, ih, List.countP_cons_of_pos rfl]

/-- A block among the blocks of a document: its number, line and threshold come from the parts above
it. -/
theorem getElem?_blocksOf {opening closing : Text} {body : List Text}
    (above below : List (Part Text)) :
    (blocksOf helper n index references
        (above ++ .code opening body closing :: below))[above.countP Part.isCode]? =
      some ⟨index + above.countP Part.isCode,
        references + referencesOn helper (above.flatMap Part.prose),
        n + (above.flatMap Part.lines).length, body⟩ := by
  rw [blocksOf_append, List.getElem?_append_right (Nat.le_of_eq (length_blocksOf_eq above)),
    length_blocksOf_eq, Nat.sub_self]
  rfl

end Blocks

/-- A segmentation loses, repeats and misplaces nothing of its text. The lines are a row of lines of
prose, listings and code blocks in one way only. The prose is what stands outside of the code
blocks, and each block has its number, its first line, the lines between its fences, and for its
threshold the references in the prose above it. -/
theorem segment_decomposes {m : Markers} {text : Text} {s : Segmentation}
    (h : segment m text = .ok s) :
    ∃ parts, m.Admits parts ∧ Text.lines text = parts.flatMap Part.lines ∧
      (∀ parts', m.Admits parts' → Text.lines text = parts'.flatMap Part.lines →
        parts' = parts) ∧
      s.prose = Text.unlines (parts.flatMap Part.prose) ∧
      s.references = referencesOn m.helper (parts.flatMap Part.prose) ∧
      s.blocks.length = parts.countP Part.isCode ∧
      ∀ above opening body closing below, parts = above ++ .code opening body closing :: below →
        s.blocks[above.countP Part.isCode]? =
          some ⟨above.countP Part.isCode, referencesOn m.helper (above.flatMap Part.prose),
            (above.flatMap Part.lines).length + 1, body⟩ := by
  obtain ⟨parts, hadmits, hlines, rfl⟩ := exists_parts h
  refine ⟨parts, hadmits, hlines, ?_, rfl, Nat.zero_add _, length_blocksOf_eq parts, ?_⟩
  · intro parts' hadmits' hlines'
    exact hadmits'.unique hadmits (hlines'.symm.trans hlines)
  · rintro above opening body closing below rfl
    show (blocksOf m.helper 1 0 0 _)[_]? = _
    rw [getElem?_blocksOf, Nat.zero_add, Nat.zero_add, Nat.add_comm 1]

/-- A line of prose, a listing and a code block. -/
theorem segment_decomposes_of_three_parts :
    ∃ s, segment ({} : Settings).markers
        "\x7b\x7b_ \"x\"\x7d\x7d\n```sh\n\x7b\x7b_ \"y\"\x7d\x7d\n```\n```calc\nx = 2\n```".toList =
          .ok s ∧
      ∃ parts : List (Part Text), parts.countP Part.isCode = 1 ∧
        s.blocks[0]? = some ⟨0, 2, 5, ["x = 2".toList]⟩ ∧
        s.prose = Text.unlines (parts.flatMap Part.prose) := by
  have hsegment : segment ({} : Settings).markers
      "\x7b\x7b_ \"x\"\x7d\x7d\n```sh\n\x7b\x7b_ \"y\"\x7d\x7d\n```\n```calc\nx = 2\n```".toList =
        .ok ⟨[⟨0, 2, 5, ["x = 2".toList]⟩], 2,
          ["\x7b\x7b_ \"x\"\x7d\x7d".toList, "```sh".toList,
            "\x7b\x7b_ \"y\"\x7d\x7d".toList, "```".toList]⟩ := rfl
  obtain ⟨parts, -, -, -, hprose, -, hlength, -⟩ := segment_decomposes hsegment
  exact ⟨_, hsegment, parts, hlength.symm, rfl, hprose⟩

end CalcDoc
