import CalcDoc.Proofs.Characters
import CalcDoc.Segmentation
import CalcDoc.Template.Rendering

/-!
# Prose of plain text and references

Prose in which every tag asks for one name, and the rest is plain text. Such prose is a template as
it stands, and rendering it asks for the names from left to right.

- `Fragment`: a plain character, or a tag that asks for a name.
- `readTag_reference`: such a tag is read as a call of the helper.
- `ofText?_written`: the template of a row of fragments.
- `render_written`: what rendering it asks for and writes.
-/

namespace CalcDoc.Template

/-- The characters of the names that are asked for. -/
def isWordChar (c : Char) : Bool :=
  c.isAlphanum || c == '_'

/-- A piece of prose: a plain character, or a tag that asks for a name. -/
inductive Fragment where
  | plain (c : Char)
  | reference (name : Text)

/-- The text of a fragment. -/
def Fragment.written : Fragment → Text
  | .plain c => [c]
  | .reference name => "\x7b\x7b_ \"".toList ++ name ++ "\"\x7d\x7d".toList

/-- Plain characters are no braces and no backslashes, and names are words. -/
def Fragment.Valid : Fragment → Prop
  | .plain c => c ≠ '{' ∧ c ≠ '}' ∧ c ≠ '\\'
  | .reference name => name ≠ [] ∧ ∀ c ∈ name, isWordChar c

instance : DecidablePred Fragment.Valid
  | .plain c => inferInstanceAs (Decidable (c ≠ '{' ∧ c ≠ '}' ∧ c ≠ '\\'))
  | .reference name =>
    decidable_of_iff (name.isEmpty = false ∧ name.all isWordChar) (by simp [Fragment.Valid])

/-- The text of a row of fragments. -/
def written (fs : List Fragment) : Text :=
  fs.flatMap Fragment.written

/-! ## Reading one tag -/

/-- A word is a string as it stands. -/
theorem skipQuoted_word {name : Text} (hname : ∀ c ∈ name, isWordChar c) (rest : Text) :
    skipQuoted '"' (name ++ '"' :: rest) = some rest := by
  induction name with
  | nil => simp [skipQuoted]
  | cons c name ih =>
    have hc : isWordChar c := hname c List.mem_cons_self
    have hslash : c ≠ '\\' := ne_of_class hc (by decide)
    have hquote : c ≠ '"' := ne_of_class hc (by decide)
    rw [List.cons_append, skipQuoted]
    · rw [if_neg hquote, if_neg hslash]
      exact ih fun d hd => hname d (List.mem_cons_of_mem _ hd)
    · simp [hslash]
    · simp [hslash]

theorem readChars_word {name : Text} (hname : ∀ c ∈ name, isWordChar c) :
    Json.readChars true (name ++ ['"']) = some (name, []) := by
  induction name with
  | nil => simp [Json.readChars]
  | cons c name ih =>
    have hc : isWordChar c := hname c List.mem_cons_self
    have hslash : c ≠ '\\' := ne_of_class hc (by decide)
    have hquote : c ≠ '"' := ne_of_class hc (by decide)
    have hcontrol : ¬ c.toNat < 0x20 := fun hlt =>
      notMem_of_class hc (by decide) (List.mem_range.2 hlt)
    rw [List.cons_append, Json.readChars, if_neg hquote, if_neg hslash, if_neg hcontrol,
      ih fun d hd => hname d (List.mem_cons_of_mem _ hd)]

/-- The value of a word in quotes. -/
theorem ofText?_word {name : Text} (hname : ∀ c ∈ name, isWordChar c) :
    Json.ofText? ('"' :: (name ++ ['"'])) = some (.str (String.ofList name)) := by
  have hread : Json.readValue true Json.maxNesting ('"' :: (name ++ ['"'])) =
      (Json.readChars true (name ++ ['"'])).map fun r => (.str (String.ofList r.1), r.2) :=
    rfl
  rw [Json.ofText?, hread, readChars_word hname]
  rfl

/-- A word in quotes is a literal. -/
theorem readLiteral_word {name : Text} (hname : ∀ c ∈ name, isWordChar c) (rest : Text) :
    readLiteral ('"' :: (name ++ '"' :: rest)) =
      some (some (.str (String.ofList name)), rest) := by
  have hbefore : Text.before ('"' :: (name ++ '"' :: rest)) rest = '"' :: (name ++ ['"']) := by
    have hsplit : '"' :: (name ++ '"' :: rest) = ('"' :: (name ++ ['"'])) ++ rest := by simp
    rw [Text.before, hsplit, List.length_append, Nat.add_sub_cancel, List.take_left]
  have hskip : skipLiteral (('"' :: (name ++ '"' :: rest)).length + 1)
      ('"' :: (name ++ '"' :: rest)) = skipQuoted '"' (name ++ '"' :: rest) := rfl
  have hvalue : literalValue? ('"' :: (name ++ ['"'])) = Json.ofText? ('"' :: (name ++ ['"'])) :=
    rfl
  rw [readLiteral, hskip, skipQuoted_word hname, Option.map_some, hbefore, hvalue,
    ofText?_word hname]

/-- Nothing that is a parameter begins with a closing brace. -/
theorem readParam_brace (depth : Nat) (rest : Text) : readParam depth ('}' :: rest) = none := by
  cases depth with
  | zero => rfl
  | succ depth => rfl

theorem readNamed_brace (param : Text → Option (Param × Text)) (rest : Text) :
    readNamed param ('}' :: rest) = none := by
  rfl

/-- The braces that end a tag end its parameters. -/
theorem readParams_brace (depth count : Nat) (rest : Text) :
    readParams (readParam depth) count ('}' :: rest) = (⟨[], []⟩, '}' :: rest) := by
  cases count with
  | zero => rfl
  | succ count =>
    rw [readParams, show Text.skipSpace ('}' :: rest) = '}' :: rest from rfl, readNamed_brace,
      readParam_brace]

/-- The call of the helper with a name in quotes. -/
def referenceCall (name : Text) : Call :=
  ⟨"_", [.literal (.str (String.ofList name))], []⟩

theorem readParam_word {name : Text} (hname : ∀ c ∈ name, isWordChar c) (depth : Nat)
    (rest : Text) : readParam (depth + 1) ('"' :: (name ++ '"' :: rest)) =
      some (.literal (.str (String.ofList name)), rest) := by
  have hkeyword : startsKeyword ('"' :: (name ++ '"' :: rest)) = false := rfl
  unfold readParam
  rw [hkeyword, if_neg Bool.false_ne_true, readLiteral_word hname]
  rfl

/-- What stands between the braces of a tag is read as a call. -/
theorem readLine_reference {name : Text} (hname : ∀ c ∈ name, isWordChar c) (depth : Nat)
    (rest : Text) :
    readLine (readParam (depth + 1)) ('_' :: ' ' :: '"' :: (name ++ '"' :: '}' :: rest)) =
      some (referenceCall name, '}' :: rest) := by
  have hlabel : readName ('_' :: ' ' :: '"' :: (name ++ '"' :: '}' :: rest)) =
      some ("_", ' ' :: '"' :: (name ++ '"' :: '}' :: rest)) := rfl
  have hskip : Text.skipSpace (' ' :: '"' :: (name ++ '"' :: '}' :: rest)) =
      '"' :: (name ++ '"' :: '}' :: rest) := rfl
  have hnamed : readNamed (readParam (depth + 1)) ('"' :: (name ++ '"' :: '}' :: rest)) = none :=
    rfl
  rw [readLine, hlabel]
  dsimp only
  rw [List.length_cons, readParams, hskip, hnamed]
  dsimp only
  rw [readParam_word hname]
  dsimp only
  rw [readParams_brace]
  rfl

/-- A tag that asks for a name is read as a call of the helper. -/
theorem readTag_reference {name : Text} (hname : ∀ c ∈ name, isWordChar c) (rest : Text) :
    readTag ("_ \"".toList ++ name ++ "\"\x7d\x7d".toList ++ rest) =
      some (⟨.call (referenceCall name), false, false⟩, rest) := by
  have htext : "_ \"".toList ++ name ++ "\"\x7d\x7d".toList ++ rest =
      '_' :: ' ' :: '"' :: (name ++ '"' :: '}' :: '}' :: rest) := by simp
  rw [htext]
  -- the depth of the parameters is bounded by the length, which is not zero
  generalize ht : '_' :: ' ' :: '"' :: (name ++ '"' :: '}' :: '}' :: rest) = t
  obtain ⟨depth, hdepth⟩ : ∃ depth, t.length = depth + 1 := ⟨_, by rw [← ht, List.length_cons]⟩
  have htag : readTag t = finishTag false "\x7d\x7d" (readExpression t) := by
    subst ht
    rfl
  have hexpression : readExpression t = some (.call (referenceCall name), '}' :: '}' :: rest) := by
    have hskip : Text.skipSpace t = t := by
      subst ht
      rfl
    have hline := readLine_reference hname depth ('}' :: rest)
    rw [ht] at hline
    rw [readExpression, hskip, hdepth]
    dsimp only
    rw [readCall, hline]
    rfl
  rw [htag, hexpression]
  rfl

/-! ## Reading a row of fragments -/

/-- Plain characters that stand together, or one tag. -/
inductive Chunk where
  | text (t : Text)
  | reference (name : Text)

/-- The chunks with a plain character in front. -/
def pushChar (c : Char) : List Chunk → List Chunk
  | .text t :: ks => .text (c :: t) :: ks
  | ks => .text [c] :: ks

/-- The chunks of a row of fragments. -/
def chunks : List Fragment → List Chunk
  | [] => []
  | .plain c :: fs => pushChar c (chunks fs)
  | .reference name :: fs => .reference name :: chunks fs

/-- The piece that a chunk is read as. -/
def Chunk.piece : Chunk → Piece
  | .text t => .text t
  | .reference name => .tag ⟨.call (referenceCall name), false, false⟩ false

/-- The node of a chunk. -/
def Chunk.node : Chunk → Node
  | .text t => .text t
  | .reference name => .call (referenceCall name)

/-- The plain characters in front of a row of fragments, and the row from its first tag on. -/
def leading : List Fragment → Text × List Fragment
  | .plain c :: fs => (c :: (leading fs).1, (leading fs).2)
  | fs => ([], fs)

/-- From its first tag on, a row of fragments begins with a tag. -/
theorem leading_snd (fs : List Fragment) :
    (leading fs).2 = [] ∨ ∃ name gs, (leading fs).2 = .reference name :: gs := by
  induction fs with
  | nil => exact .inl rfl
  | cons f fs ih =>
    cases f with
    | plain c => exact ih
    | reference name => exact .inr ⟨name, fs, rfl⟩

theorem suffix_leading (fs : List Fragment) : (leading fs).2 <:+ fs := by
  induction fs with
  | nil => exact List.suffix_rfl
  | cons f fs ih =>
    cases f with
    | plain c => exact ih.trans (List.suffix_cons _ _)
    | reference name => exact List.suffix_rfl

theorem chunks_leading (fs : List Fragment) :
    chunks fs = if (leading fs).1 = [] then chunks (leading fs).2
      else .text (leading fs).1 :: chunks (leading fs).2 := by
  induction fs with
  | nil => rfl
  | cons f fs ih =>
    cases f with
    | reference name => rfl
    | plain c =>
      show pushChar c (chunks fs) = .text (c :: (leading fs).1) :: chunks (leading fs).2
      rw [ih]
      by_cases hnone : (leading fs).1 = []
      · rw [if_pos hnone, hnone]
        rcases leading_snd fs with h | ⟨name, gs, h⟩ <;> rw [h] <;> rfl
      · rw [if_neg hnone]
        rfl

theorem readPlain_cons {c : Char} (hbrace : c ≠ '{') (hslash : c ≠ '\\') (t : Text) :
    readPlain (c :: t) = (c :: (readPlain t).1, (readPlain t).2) := by
  rw [readPlain]
  · rintro u h
    exact absurd h hbrace
  all_goals
    rintro u h
    exact absurd h hslash

theorem readPlain_written {fs : List Fragment} (hfs : ∀ f ∈ fs, f.Valid) :
    readPlain (written fs) = ((leading fs).1, written (leading fs).2) := by
  induction fs with
  | nil => rfl
  | cons f fs ih =>
    cases f with
    | plain c =>
      obtain ⟨hopen, -, hslash⟩ := hfs _ List.mem_cons_self
      have hrest := ih fun g hg => hfs g (List.mem_cons_of_mem _ hg)
      show readPlain (c :: written fs) = (c :: (leading fs).1, written (leading fs).2)
      rw [readPlain_cons hopen hslash, hrest]
    | reference name => rfl

theorem readPieces_tag {count : Nat} {blank : Bool} {t plain u rest : Text} {m : MarkedTag}
    (ht : readPlain t = (plain, '{' :: '{' :: u)) (hu : readTag u = some (m, rest)) :
    readPieces (count + 1) blank t = (readPieces count false rest).map fun ps =>
      Piece.textBefore plain
        (.tag m (m.tag.takesLine && blankAfter blank plain && restIsBlank rest) :: ps) := by
  rw [readPieces, ht]
  dsimp only
  split
  · next h =>
    obtain ⟨rfl, hcons⟩ := Prod.mk.inj h
    obtain rfl := (List.cons.inj (List.cons.inj hcons).2).2
    rw [hu]
  · next hne h =>
    obtain ⟨-, rfl⟩ := Prod.mk.inj h
    exact (hne _ rfl).elim

/-- A row of fragments is read as the pieces of its chunks. -/
theorem readPieces_written {fs : List Fragment} (hfs : ∀ f ∈ fs, f.Valid) {count : Nat}
    (hcount : fs.length < count) (blank : Bool) :
    readPieces count blank (written fs) = some ((chunks fs).map Chunk.piece) := by
  induction count generalizing fs blank with
  | zero => exact absurd hcount (Nat.not_lt_zero _)
  | succ count ih =>
    have hchunks : (chunks fs).map Chunk.piece =
        Piece.textBefore (leading fs).1 ((chunks (leading fs).2).map Chunk.piece) := by
      rw [chunks_leading, Piece.textBefore]
      cases (leading fs).1 <;> rfl
    have hsuffix := suffix_leading fs
    have hplain := readPlain_written hfs
    -- behind the plain characters there is the end or a tag
    rcases leading_snd fs with hrest | ⟨name, gs, hrest⟩
    · rw [readPieces, hplain, hchunks, hrest]
      rfl
    · rw [hrest] at hsuffix hplain hchunks
      obtain ⟨-, hname⟩ : Fragment.Valid (.reference name) :=
        hfs _ (hsuffix.subset List.mem_cons_self)
      have hgs : ∀ g ∈ gs, g.Valid :=
        fun g hg => hfs g (hsuffix.subset (List.mem_cons_of_mem _ hg))
      have hlength := hsuffix.length_le
      rw [List.length_cons] at hlength
      have hpieces := ih hgs (by omega) false
      have htext : written (.reference name :: gs) =
          '{' :: '{' :: ("_ \"".toList ++ name ++ "\"\x7d\x7d".toList ++ written gs) := by
        simp [written, Fragment.written]
      rw [htext] at hplain
      rw [readPieces_tag hplain (readTag_reference hname _), hpieces, hchunks]
      rfl

/-- No blanks are trimmed around tags that ask for names. -/
theorem trimPieces_chunks (ks : List Chunk) :
    trimPieces false false (ks.map Chunk.piece) = ks.map Chunk.piece := by
  induction ks with
  | nil => rfl
  | cons k ks ih =>
    cases k with
    | reference name =>
      rw [List.map_cons, Chunk.piece, trimPieces]
      exact congrArg _ ih
    | text t =>
      -- a tag that trims blanks would have to say so
      have hend : trimEnding t (ks.map Chunk.piece) = t := by
        cases ks with
        | nil => rfl
        | cons k ks => cases k <;> rfl
      rw [List.map_cons, Chunk.piece, trimPieces]
      show Piece.text (trimEnding t _) :: trimPieces false false _ = _
      rw [hend, ih]

theorem nest_chunks (back : List Node) (ks : List Chunk) :
    nest [] back (ks.map Chunk.piece) = some (back.reverse ++ ks.map Chunk.node) := by
  induction ks generalizing back with
  | nil => rw [List.map_nil, nest, List.map_nil, List.append_nil]
  | cons k ks ih =>
    cases k with
    | reference name =>
      rw [List.map_cons, Chunk.piece, nest]
      dsimp only
      rw [ih]
      simp [Chunk.node]
    | text t =>
      rw [List.map_cons, Chunk.piece, nest, ih]
      simp [Chunk.node]

theorem length_le_written (fs : List Fragment) : fs.length ≤ (written fs).length := by
  induction fs with
  | nil => exact Nat.le_refl _
  | cons f fs ih =>
    have hpos : 0 < f.written.length := by
      cases f <;> simp [Fragment.written]
    rw [written, List.flatMap_cons, List.length_append, List.length_cons]
    rw [written] at ih
    omega

/-- A row of fragments is a template as it stands. -/
theorem ofText?_written {fs : List Fragment} (hfs : ∀ f ∈ fs, f.Valid) :
    Template.ofText? (written fs) = some ((chunks fs).map Chunk.node) := by
  rw [ofText?, readPieces_written hfs (Nat.lt_succ_of_le (length_le_written fs)),
    Option.bind_some, trimPieces_chunks, nest_chunks]
  rfl

/-! ## Rendering a row of fragments -/

/-- Writes the plain characters, and asks for the names, from left to right. -/
def fillFragments : List Fragment → Dialogue Text
  | [] => .done []
  | .plain c :: fs => (fillFragments fs).andThen fun t => .done (c :: t)
  | .reference name :: fs =>
    .ask (String.ofList name) fun answer =>
      (fillFragments fs).andThen fun t => .done (answer.toList ++ t)

/-- The same for chunks. -/
def fillChunks : List Chunk → Dialogue Text
  | [] => .done []
  | .text t :: ks => (fillChunks ks).andThen fun u => .done (t ++ u)
  | .reference name :: ks =>
    .ask (String.ofList name) fun answer =>
      (fillChunks ks).andThen fun t => .done (answer.toList ++ t)

theorem fillChunks_pushChar (c : Char) (ks : List Chunk) :
    fillChunks (pushChar c ks) = (fillChunks ks).andThen fun t => .done (c :: t) := by
  cases ks with
  | nil => rfl
  | cons k ks =>
    cases k with
    | reference name => rfl
    | text t => simp [pushChar, fillChunks, Dialogue.andThen_assoc]

theorem fillChunks_chunks (fs : List Fragment) : fillChunks (chunks fs) = fillFragments fs := by
  induction fs with
  | nil => rfl
  | cons f fs ih =>
    cases f with
    | plain c => rw [chunks, fillChunks_pushChar, ih, fillFragments]
    | reference name => rw [chunks, fillChunks, ih, fillFragments]

theorem eval_referenceCall (m : Mode) (s : Scope) (name : Text) :
    (referenceCall name).eval m s =
      .done ⟨[⟨none, some (.str (String.ofList name))⟩], []⟩ :=
  rfl

theorem writeCall_reference {m : Mode} (hm : m.request? = some "_") (x : String) :
    writeCall m "_" ⟨[⟨none, some (.str x)⟩], []⟩ = .ask x fun answer => .done answer.toList := by
  have hcalled : m.called? false "_" = some .request := by
    rw [Mode.called?, Mode.helper?, if_pos hm]
    rfl
  rw [writeCall, callHelper, hcalled]
  rfl

theorem render_chunks {m : Mode} (hm : m.request? = some "_") (ks : List Chunk) (s : Scope) :
    renderNodes m (ks.map Chunk.node) s = fillChunks ks := by
  induction ks with
  | nil => rfl
  | cons k ks ih =>
    cases k with
    | text t =>
      rw [List.map_cons, renderNodes, ih]
      rfl
    | reference name =>
      rw [List.map_cons, renderNodes, ih, Chunk.node, Node.render, eval_referenceCall,
        Dialogue.done_andThen, referenceCall, writeCall_reference hm]
      simp only [Dialogue.andThen, fillChunks]

/-- Rendering a row of fragments asks for its names, and writes the answers in their places. -/
theorem render_written {fs : List Fragment} (hfs : ∀ f ∈ fs, f.Valid) {m : Mode}
    (hm : m.request? = some "_") (data : Json) :
    ∃ t, Template.ofText? (written fs) = some t ∧ t.render m data = fillFragments fs := by
  refine ⟨_, ofText?_written hfs, ?_⟩
  rw [Template.render, render_chunks hm, fillChunks_chunks]

/-! ## Counting the references -/

/-- The count of tags in a row of fragments. -/
def referenceCount : List Fragment → Nat
  | [] => 0
  | .plain _ :: fs => referenceCount fs
  | .reference _ :: fs => referenceCount fs + 1

theorem countReferences_append {helper t : Text} (ht : '{' ∉ t) (rest : Text) :
    countReferences helper (t ++ rest) = countReferences helper rest := by
  induction t with
  | nil => rfl
  | cons c t ih =>
    obtain ⟨hc, ht⟩ := List.ne_and_not_mem_of_not_mem_cons ht
    rw [List.cons_append, countReferences]
    · exact ih ht
    · rintro u h
      exact absurd h.symm hc

/-- The references that are counted by the look of the text are the tags. -/
theorem countReferences_written {fs : List Fragment} (hfs : ∀ f ∈ fs, f.Valid) :
    countReferences ['_'] (written fs) = referenceCount fs := by
  induction fs with
  | nil => rfl
  | cons f fs ih =>
    have hrest := ih fun g hg => hfs g (List.mem_cons_of_mem _ hg)
    cases f with
    | plain c =>
      obtain ⟨hopen, -, -⟩ := hfs _ List.mem_cons_self
      show countReferences ['_'] ([c] ++ written fs) = _
      rw [countReferences_append (by simpa using hopen.symm), hrest, referenceCount]
    | reference name =>
      obtain ⟨-, hname⟩ := hfs _ List.mem_cons_self
      have htext : written (.reference name :: fs) =
          '{' :: '{' :: ("_ \"".toList ++ name ++ "\"\x7d\x7d".toList ++ written fs) := by
        simp [written, Fragment.written]
      have hreference : isReference ['_']
          ("_ \"".toList ++ name ++ "\"\x7d\x7d".toList ++ written fs) = true := by
        rw [List.append_assoc, List.append_assoc]
        rfl
      -- inside of a tag no other one begins
      have hinside : '{' ∉ "_ \"".toList ++ name ++ "\"\x7d\x7d".toList := by
        have hmiddle : '{' ∉ name := fun h => ne_of_class (hname _ h) (by decide) rfl
        simp [hmiddle]
      rw [htext, countReferences, if_pos hreference, countReferences_append hinside, hrest,
        referenceCount, Nat.add_comm]

end CalcDoc.Template
