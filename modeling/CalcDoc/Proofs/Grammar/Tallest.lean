import CalcDoc.Proofs.Grammar.Height
import CalcDoc.Proofs.Grammar.Steps
import CalcDoc.Proofs.Spelling

/-!
# The tallest expressions

Sources whose expressions are as tall as the readers allow.

- `Chain.links`: as many operands of one chain as one likes.
- `towerWords`, `tallBase`: the four chains of a level on top of each other, at the bottom of which
  a call leads to the next level.
- `height_le_iff`: the bound on the heights of expressions, and that no smaller one holds.
-/

namespace CalcDoc.Script

/-- The lexemes of words on the first line. -/
def lexemes (ws : List Spelled) : List Lexeme :=
  ws.map fun w => ⟨1, w.token⟩

@[simp] theorem lexemes_nil : lexemes [] = [] := rfl

@[simp] theorem lexemes_cons (w : Spelled) (ws : List Spelled) :
    lexemes (w :: ws) = ⟨1, w.token⟩ :: lexemes ws := rfl

@[simp] theorem lexemes_append (ws vs : List Spelled) :
    lexemes (ws ++ vs) = lexemes ws ++ lexemes vs :=
  List.map_append

/-- The word `0`. -/
def zeroWord : Spelled :=
  ⟨['0'], .int 0, spells_digits (by decide) (by decide) (by decide)⟩

/-- The word `<`. -/
def lessWord : Spelled :=
  ⟨['<'], .compare .lt, spells_symbol (by decide) (by decide) rfl fun _ => rfl⟩

/-- The word `f`. -/
def calleeWord : Spelled :=
  ⟨['f'], .name "f", spells_word (by decide) (by decide)⟩

/-- The word `(`. -/
def openWord : Spelled :=
  ⟨['('], .openParen, spells_symbol (by decide) (by decide) rfl fun _ => rfl⟩

/-- The word `)`. -/
def closeWord : Spelled :=
  ⟨[')'], .closeParen, spells_symbol (by decide) (by decide) rfl fun _ => rfl⟩

/-- The word `**`. -/
def powerWord : Spelled :=
  ⟨['*', '*'], .arith .pow, spells_symbol (by decide) (by decide) rfl fun _ => rfl⟩

/-- The number that `0` is read as. -/
def Expr.zero : Expr :=
  .literal (.int 0)

/-! ## One chain -/

/-- A word that goes on with a chain. -/
def Chain.link : Chain → Spelled
  | .either => ⟨['o', 'r'], .or, spells_word (by decide) (by decide)⟩
  | .both => ⟨['a', 'n', 'd'], .and, spells_word (by decide) (by decide)⟩
  | .sum => ⟨['+'], .arith .add, spells_symbol (by decide) (by decide) rfl fun _ => rfl⟩
  | .product => ⟨['*'], .arith .mul, spells_symbol (by decide) (by decide) rfl fun _ => rfl⟩

/-- How that word joins two operands. -/
def Chain.join : Chain → Expr → Expr → Expr
  | .either => .or
  | .both => .and
  | .sum => .arith .add
  | .product => .arith .mul

theorem join?_link (c : Chain) : c.join? c.link.token = some c.join := by
  cases c <;> rfl

/-- The words of `n` more operands of a chain. -/
def Chain.links (c : Chain) : (n : Nat) → List Spelled
  | 0 => []
  | n + 1 => c.link :: zeroWord :: c.links n

/-- The chain that begins with `e` and has `n` more operands. -/
def Chain.extend (c : Chain) : (n : Nat) → Expr → Expr
  | 0, e => e
  | n + 1, e => c.extend n (c.join e .zero)

theorem height_pos (e : Expr) : 0 < e.height := by
  cases e <;> simp [Expr.height]

/-- Every operand makes the chain taller. -/
theorem height_extend (c : Chain) (n : Nat) (e : Expr) : (c.extend n e).height = e.height + n := by
  induction n generalizing e with
  | zero => rfl
  | succ n ih =>
    have := height_pos e
    rw [Chain.extend, ih, height_of_join? (join?_link c)]
    simp only [Expr.zero, Expr.height]
    omega

section Readings

variable {endLine levels n : Nat} {ts rest : List Lexeme} {e : Expr}

theorem read_zero {inner : Option Readers} (r : Rung) (hend : Ends r rest) :
    r.read endLine inner (⟨1, zeroWord.token⟩ :: rest) = .ok (.zero, rest) := by
  have hprimary : Rung.primary.read endLine inner (⟨1, zeroWord.token⟩ :: rest) = _ := rfl
  exact read_looser hprimary (by cases r <;> decide) hend

theorem ends_links {c : Chain} {r : Rung} (n : Nat) (hr : c.rung.tightness < r.tightness)
    (hend : Ends r rest) : Ends r (lexemes (c.links n) ++ rest) := by
  cases n with
  | zero => exact hend
  | succ n =>
    refine ends_cons fun s hs => ?_
    obtain rfl := Option.some.inj ((rung?_of_join? (join?_link c)).symm.trans hs)
    exact hr

/-- The rest of a chain is read, a level for each operand. -/
theorem readMore_links (c : Chain) (hn : n ≤ levels) (hend : Ends c.rung rest) :
    readMore endLine (readers endLine levels) c e (lexemes (c.links n) ++ rest) =
      .ok (c.extend n e, rest) := by
  induction n generalizing levels e with
  | zero => exact readMore_of_ends c e hend
  | succ n ih =>
    obtain ⟨k, rfl⟩ : ∃ k, levels = k + 1 := ⟨levels - 1, by omega⟩
    have hnext : Ends c.operandRung (lexemes (c.links n) ++ rest) :=
      ends_links n (by cases c <;> decide) (hend.tighter (tighter?_rung c))
    -- the zero is read one level further in, and the rest of the chain there as well
    rw [Chain.links, lexemes_cons, lexemes_cons, List.cons_append, List.cons_append,
      readMore_join (join?_link c) (read_zero c.operandRung hnext)]
    exact ih (Nat.le_of_succ_le_succ hn)

theorem read_links (c : Chain) (hn : n ≤ levels) (hend : Ends c.rung rest)
    (h : c.operandRung.read endLine (readers endLine levels) ts =
      .ok (e, lexemes (c.links n) ++ rest)) :
    c.rung.read endLine (readers endLine levels) ts = .ok (c.extend n e, rest) := by
  rw [read_chain c h, readMore_links c hn hend]

end Readings

/-! ## All chains of a level -/

/-- The words of the chains of a level, one around the other; `base` is the first operand of the
innermost. -/
def towerWords (n : Nat) (base : List Spelled) : List Spelled :=
  base ++ (Chain.product.links n ++ (Chain.sum.links n ++
    (lessWord :: zeroWord :: (Chain.both.links n ++ Chain.either.links n))))

/-- What they are read as. -/
def Expr.tower (n : Nat) (e : Expr) : Expr :=
  Chain.either.extend n (Chain.both.extend n
    (.compare .lt (Chain.sum.extend n (Chain.product.extend n e)) .zero))

theorem height_tower (n : Nat) (e : Expr) : (e.tower n).height = e.height + 4 * n + 1 := by
  have := height_pos e
  simp only [Expr.tower, height_extend, Expr.height, Expr.zero]
  omega

/-- The words at the bottom of the chains: with one level more, a power of a call whose argument
is as tall as can be. -/
def tallBase : (levels : Nat) → List Spelled
  | 0 => [zeroWord]
  | levels + 1 =>
    calleeWord :: openWord :: (towerWords levels (tallBase levels) ++
      [closeWord, powerWord, zeroWord])

/-- What they are read as. -/
def tallExpr : (levels : Nat) → Expr
  | 0 => .zero
  | levels + 1 => .arith .pow (.call "f" [(tallExpr levels).tower levels]) .zero

theorem height_tallExpr (levels : Nat) : (tallExpr levels).height = tallestSigned levels := by
  induction levels with
  | zero => rfl
  | succ levels ih =>
    simp only [tallExpr, Expr.height, Expr.heights, height_tower, ih, Expr.zero, tallestSigned]
    omega

section Towers

variable {endLine levels : Nat} {rest : List Lexeme} {base : List Spelled} {e : Expr}

/-- The chains of a level are read from the innermost outwards. -/
theorem read_tower
    (hbase : ∀ rest, Ends .signed rest →
      readSigned endLine (readers endLine levels) (lexemes base ++ rest) = .ok (e, rest))
    (hend : Ends .either rest) :
    readEither endLine (readers endLine levels) (lexemes (towerWords levels base) ++ rest) =
      .ok (e.tower levels, rest) := by
  have hboth : Ends .both (lexemes (Chain.either.links levels) ++ rest) :=
    ends_links levels (by decide) (hend.mono (by decide))
  have hcomparison : Ends .comparison (lexemes (Chain.both.links levels) ++
      (lexemes (Chain.either.links levels) ++ rest)) :=
    ends_links levels (by decide) (hboth.mono (by decide))
  -- the comparison ends the sum on its left
  have hsum : Ends .sum (⟨1, lessWord.token⟩ :: ⟨1, zeroWord.token⟩ ::
      (lexemes (Chain.both.links levels) ++ (lexemes (Chain.either.links levels) ++ rest))) := by
    refine ends_cons fun s hs => ?_
    obtain rfl := Option.some.inj hs
    decide
  -- each looser chain ends the tighter ones in front of it
  have hproduct := ends_links (c := .sum) (r := .product) levels (by decide) (hsum.mono (by decide))
  have hsigned := ends_links (c := .product) (r := .signed) levels (by decide)
    (hproduct.mono (by decide))
  have product := read_links .product (Nat.le_refl levels) hproduct (hbase _ hsigned)
  have sum := read_links .sum (Nat.le_refl levels) hsum product
  have comparison : readComparison endLine (readers endLine levels) _ = _ :=
    readComparison_of_readSums sum rfl (read_zero .sum (hcomparison.mono (by decide))) hcomparison
  have negation := readNegation_of_readComparison comparison
  have both := read_links .both (Nat.le_refl levels) hboth negation
  have either := read_links .either (Nat.le_refl levels) hend both
  rw [towerWords]
  simp only [lexemes_append, lexemes_cons, List.append_assoc, List.cons_append]
  exact either

/-- The tallest argument of a call and the call's power are read with one level more. -/
theorem read_tallBase (levels : Nat) : ∀ rest, Ends .signed rest →
    readSigned endLine (readers endLine levels) (lexemes (tallBase levels) ++ rest) =
      .ok (tallExpr levels, rest) := by
  induction levels with
  | zero => exact fun rest hend => read_zero .signed hend
  | succ levels ih =>
    intro rest hend
    have hclose : Ends .either (⟨1, .closeParen⟩ :: ⟨1, .arith .pow⟩ ::
        ⟨1, zeroWord.token⟩ :: rest) := ends_of_rung? rfl
    have hargument : readExpr endLine (readers endLine (levels + 1)) _ = _ := read_tower ih hclose
    have hcall := readCall_of_readArguments (f := "f") (n := 1) (m := 1)
      (nextToken?_of_readExpr hargument) (readArguments_last hargument nofun)
    have hpower := readPower_of_pow hcall (read_zero .signed hend)
    rw [tallBase]
    simp only [lexemes_append, lexemes_cons, lexemes_nil, List.append_assoc, List.cons_append,
      List.nil_append]
    exact readSigned_of_readPower hpower

end Towers

/-! ## Sources -/

/-- A source of words that are read as an expression is a program of that expression alone. -/
theorem ofText_of_readExpr {ws : List Spelled} {e : Expr}
    (h : readExpr 1 (readers 1 maxDepth) (lexemes ws) = .ok (e, [])) :
    Program.ofText (Text.join ' ' (ws.map Spelled.word)) = .ok [⟨1, .eval e⟩] := by
  cases ws with
  | nil =>
    obtain ⟨us, hus, hd⟩ := sound_readExpr (readers_sound 1 maxDepth) _ _ _ h
    rw [List.append_nil] at hus
    subst hus
    exact absurd rfl hd.ne_nil
  | cons w ws =>
    rw [Program.ofText, ofText_join]
    exact readProgram_of_readExpr h

/-- The source of a tower with as many levels as there are is read, and its expression has the
height of the bound. -/
theorem exists_ofText_tallest :
    ∃ source e, Program.ofText source = .ok [⟨1, .eval e⟩] ∧ e.height = tallestInside maxDepth := by
  obtain ⟨levels, hlevels⟩ : ∃ levels, maxDepth = levels + 1 := ⟨255, rfl⟩
  have hread : readExpr 1 (readers 1 maxDepth) (lexemes (towerWords levels (tallBase levels))) =
      .ok ((tallExpr levels).tower levels, []) := by
    have htower := read_tower (@read_tallBase 1 levels) (ends_nil _)
    rw [List.append_nil] at htower
    rw [hlevels]
    exact htower
  refine ⟨_, _, ofText_of_readExpr hread, ?_⟩
  rw [height_tower, height_tallExpr, hlevels, tallestInside]

/-- The heights of the expressions of sources are bounded exactly by the numbers from 131327 on, so
not by the number of levels. -/
theorem height_le_iff (n : Nat) :
    (∀ source p, Program.ofText source = .ok p →
      ∀ s ∈ p, ∀ e, s.action.expr? = some e → e.height ≤ n) ↔ 131327 ≤ n := by
  have hmax : tallestInside maxDepth = 131327 := by
    rw [maxDepth, tallestInside, tallestSigned_eq]
    norm_num
  rw [← hmax]
  constructor
  · intro h
    obtain ⟨source, e, hsource, he⟩ := exists_ofText_tallest
    rw [← he]
    exact h source _ hsource _ List.mem_cons_self e rfl
  · intro hn source p hp s hs e he
    exact Nat.le_trans (height_of_ofText hp hs he) hn

/-- A chain of products that uses all levels is read, and so is a sum around it. -/
theorem ofText_products {n : Nat} (hn : maxDepth = n + 1) (hpos : 1 ≤ n) :
    Program.ofText (Text.join ' '
        ((zeroWord :: (Chain.product.links n ++ Chain.sum.links 1)).map Spelled.word)) =
      .ok [⟨1, .eval (Chain.sum.extend 1 (Chain.product.extend n .zero))⟩] := by
  have hsum : Ends .product (lexemes (Chain.sum.links 1)) := by
    have := ends_links (c := .sum) (r := .product) 1 (by decide) (ends_nil _)
    rwa [List.append_nil] at this
  have hproduct : Ends .signed (lexemes (Chain.product.links n) ++ lexemes (Chain.sum.links 1)) :=
    ends_links n (by decide) (hsum.mono (by decide))
  have product : Rung.product.read 1 (readers 1 n) _ = _ :=
    read_links .product (Nat.le_refl n) hsum (read_zero .signed hproduct)
  have sum : Rung.sum.read 1 (readers 1 n) _ = .ok (_, []) :=
    read_links .sum hpos (ends_nil _) product
  refine ofText_of_readExpr ?_
  rw [hn, lexemes_cons, lexemes_append]
  exact read_looser (r := .either) sum (by decide) (ends_nil _)

/-- The source `0 * 0 * … * 0 + 0` with 255 products and a sum is read, and is taller than there are
levels. -/
theorem maxDepth_lt_height :
    ∃ p, Program.ofText (Text.join ' '
        ((zeroWord :: (Chain.product.links 255 ++ Chain.sum.links 1)).map Spelled.word)) = .ok p ∧
      ∃ s ∈ p, ∃ e, s.action.expr? = some e ∧ maxDepth < e.height := by
  refine ⟨_, ofText_products rfl (by decide), _, List.mem_cons_self, _, rfl, ?_⟩
  rw [height_extend, height_extend]
  decide

end CalcDoc.Script
