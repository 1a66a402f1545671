import CalcDoc.Proofs.Bytes
import CalcDoc.Proofs.Characters
import CalcDoc.Proofs.Lexemes.Scanning
import CalcDoc.Proofs.Lexemes.Tokens

/-!
# Slices of a source

A scan that knows the offset of every character takes the texts of numbers and words out of its
source between two offsets. It counts the end itself: one byte for a character of a number, and as
many as it has for a character of a word. A slice is undefined out of the source and inside of
characters; this never happens, and the slices are what the scan of characters gathers.

- `Text.slice?`: the text between two offsets, if there is one.
- `numberEnd`, `wordEnd`: where a number and a word end, as the scan counts.
- `Token.read?`, `Text.scan?`: a token and the lexemes of a text, read with slices.
- `Lexemes.ofText?_eq`: every slice is defined, by induction on the scan.
-/

namespace CalcDoc

namespace Text

/-- What stands before a byte and what stands from there on, if a character or the end is there. -/
def splitByte? (n : Nat) : Text → Option (Text × Text)
  | [] => if n = 0 then some ([], []) else none
  | c :: t =>
    if n = 0 then some ([], c :: t)
    else if c.utf8Size ≤ n then
      (splitByte? (n - c.utf8Size) t).map fun p => (c :: p.1, p.2)
    else none

/-- The text between two offsets, if they are in order and both stand between characters. -/
def slice? (source : Text) (start stop : Nat) : Option Text :=
  if start ≤ stop then
    (splitByte? start source).bind fun p => (splitByte? (stop - start) p.2).map Prod.fst
  else none

theorem splitByte?_append (a b : Text) : splitByte? (byteSize a) (a ++ b) = some (a, b) := by
  induction a with
  | nil => cases b <;> rfl
  | cons c a ih =>
    have hpos := c.utf8Size_pos
    rw [List.cons_append, splitByte?, byteSize_cons, if_neg (by omega),
      if_pos (Nat.le_add_right _ _), Nat.add_sub_cancel_left, ih]
    rfl

theorem slice?_append (a b rest : Text) :
    slice? (a ++ (b ++ rest)) (byteSize a) (byteSize a + byteSize b) = some b := by
  rw [slice?, if_pos (Nat.le_add_right _ _), splitByte?_append, Nat.add_sub_cancel_left,
    Option.bind_some, splitByte?_append]
  rfl

/-- No slice ends inside of a character. -/
example : slice? ['x', 'é', 'y'] 0 2 = none := by decide

end Text

namespace Script

/-! ## Numbers -/

/-- What has been counted of a number: whether it is a float, the offset of its end, and the text
after it. -/
structure Counted where
  isFloat : Bool
  stop : Nat
  rest : Text

/-- The end of a number. The text that is left begins at `offset`, and the end so far is `stop`;
the end moves one byte behind the offset of each character that belongs to the number. -/
def numberEnd (isFloat : Bool) (stop offset : Nat) : Text → Counted
  | [] => ⟨isFloat, stop, []⟩
  | c :: t =>
    let next := offset + c.utf8Size
    if c.isDigit ∨ c = '_' then numberEnd isFloat (offset + 1) next t
    else if c = '.' ∧ isFloat = false then numberEnd true (offset + 1) next t
    else if c = 'e' ∨ c = 'E' then
      match t with
      | [] => ⟨true, offset + 1, []⟩
      | s :: u =>
        if s = '+' ∨ s = '-' then numberEnd true (next + 1) (next + s.utf8Size) u
        else numberEnd true (offset + 1) next (s :: u)
    else ⟨isFloat, stop, c :: t⟩

/-- The number that begins with `c` at `start`, read as a slice without its underscores. -/
def readNumber? (source : Text) (start : Nat) (c : Char) (t : Text) :
    Option (Except Fault (Token × Text)) :=
  let n := numberEnd false (start + 1) (start + c.utf8Size) t
  (source.slice? start n.stop).map fun written =>
    Numeral.value ⟨written.filter (· ≠ '_'), n.isFloat, n.rest⟩

theorem utf8Size_of_isDigit {c : Char} (h : c.isDigit) : c.utf8Size = 1 := by
  have hle : c.toNat ≤ 57 := (Char.isDigit_iff_toNat.1 h).2
  refine Char.utf8Size_eq_one_iff.2 (UInt32.le_iff_toNat_le.2 (Nat.le_trans hle ?_))
  decide

/-- A number has been counted as the characters of its numeral and some underscores. -/
def CountsTo (offset : Nat) (t : Text) (n : Numeral) (m : Counted) : Prop :=
  ∃ taken, t = taken ++ n.rest ∧ taken.filter (· ≠ '_') = n.text ∧
    m = ⟨n.isFloat, offset + Text.byteSize taken, n.rest⟩

theorem CountsTo.here (offset : Nat) (isFloat : Bool) (t : Text) :
    CountsTo offset t ⟨[], isFloat, t⟩ ⟨isFloat, offset, t⟩ :=
  ⟨[], rfl, rfl, rfl⟩

/-- A number with one more character of one byte. -/
theorem CountsTo.push {offset : Nat} {t : Text} {n : Numeral} {m : Counted} {c : Char}
    (h : CountsTo (offset + 1) t n m) (hc : c ≠ '_') (hsize : c.utf8Size = 1) :
    CountsTo offset (c :: t) (n.push c) m := by
  obtain ⟨taken, rfl, htext, rfl⟩ := h
  refine ⟨c :: taken, rfl, ?_, ?_⟩
  · rw [List.filter_cons_of_pos (by simpa using hc), htext]
    rfl
  · rw [Text.byteSize_cons, hsize, ← Nat.add_assoc]
    rfl

theorem CountsTo.underscore {offset : Nat} {t : Text} {n : Numeral} {m : Counted}
    (h : CountsTo (offset + 1) t n m) : CountsTo offset ('_' :: t) n m := by
  obtain ⟨taken, rfl, htext, rfl⟩ := h
  refine ⟨'_' :: taken, rfl, ?_, ?_⟩
  · rw [List.filter_cons_of_neg (by simp), htext]
  · rw [Text.byteSize_cons, ← Nat.add_assoc]
    rfl

/-- All characters of a number have one byte, so its end is counted as it is. -/
theorem numberEnd_counts (isFloat : Bool) (offset : Nat) (t : Text) :
    CountsTo offset t (readNumeral isFloat t) (numberEnd isFloat offset offset t) := by
  have letter {c : Char} (hc : c = 'e' ∨ c = 'E') : c ≠ '_' ∧ c.utf8Size = 1 := by
    rcases hc with rfl | rfl <;> decide
  have sign {c : Char} (hc : c = '+' ∨ c = '-') : c ≠ '_' ∧ c.utf8Size = 1 := by
    rcases hc with rfl | rfl <;> decide
  fun_induction readNumeral isFloat t generalizing offset with
  | case1 isFloat => exact .here _ _ _
  | case2 isFloat c t hc ih =>
    have hsize := utf8Size_of_isDigit hc
    rw [numberEnd.eq_def]
    dsimp only
    rw [if_pos (.inl hc), hsize]
    exact (ih _).push (ne_of_class hc (by decide)) hsize
  | case3 isFloat t hc ih =>
    rw [numberEnd.eq_def]
    dsimp only
    rw [if_pos (.inr rfl)]
    exact (ih _).underscore
  | case4 isFloat c t hc hunderscore hpoint ih =>
    rw [numberEnd.eq_def]
    dsimp only
    rw [if_neg (not_or.2 ⟨hc, hunderscore⟩), if_pos hpoint]
    obtain ⟨rfl, -⟩ := hpoint
    exact (ih _).push (by decide) rfl
  | case5 isFloat c hc hunderscore hpoint he =>
    obtain ⟨hne, hsize⟩ := letter he
    rw [numberEnd, if_neg (not_or.2 ⟨hc, hunderscore⟩), if_neg hpoint, if_pos he]
    exact (CountsTo.here _ true []).push hne hsize
  | case6 isFloat c hc hunderscore hpoint he s u hs ih =>
    obtain ⟨hne, hsize⟩ := letter he
    obtain ⟨hne', hsize'⟩ := sign hs
    rw [numberEnd, if_neg (not_or.2 ⟨hc, hunderscore⟩), if_neg hpoint, if_pos he, if_pos hs, hsize,
      hsize']
    exact ((ih _).push hne' hsize').push hne hsize
  | case7 isFloat c hc hunderscore hpoint he s u hs ih =>
    obtain ⟨hne, hsize⟩ := letter he
    rw [numberEnd, if_neg (not_or.2 ⟨hc, hunderscore⟩), if_neg hpoint, if_pos he, if_neg hs, hsize]
    exact (ih _).push hne hsize
  | case8 isFloat c t hc hunderscore hpoint he =>
    rw [numberEnd.eq_def]
    dsimp only
    rw [if_neg (not_or.2 ⟨hc, hunderscore⟩), if_neg hpoint, if_neg he]
    exact .here _ _ _

/-! ## Words -/

/-- The end of a word, and the text after it. The text that is left begins at `offset`, which is
the end so far. -/
def wordEnd (offset : Nat) : Text → Nat × Text
  | [] => (offset, [])
  | c :: t => if isNamePart c then wordEnd (offset + c.utf8Size) t else (offset, c :: t)

/-- The word that begins with `c` at `start`, read as a slice. -/
def readWord? (source : Text) (start : Nat) (c : Char) (t : Text) : Option (Token × Text) :=
  let (stop, rest) := wordEnd (start + c.utf8Size) t
  (source.slice? start stop).map fun written => (Token.ofWord written, rest)

theorem wordEnd_eq (offset : Nat) (t : Text) :
    wordEnd offset t =
      (offset + Text.byteSize (t.takeWhile isNamePart), t.dropWhile isNamePart) := by
  induction t generalizing offset with
  | nil => rfl
  | cons c t ih =>
    rw [wordEnd]
    by_cases hc : isNamePart c
    · rw [if_pos hc, ih, List.takeWhile_cons_of_pos hc, List.dropWhile_cons_of_pos hc,
        Text.byteSize_cons, Nat.add_assoc]
    · rw [if_neg hc, List.takeWhile_cons_of_neg hc, List.dropWhile_cons_of_neg hc]
      rfl

/-! ## The whole source -/

/-- The token that begins with `c` at `start`. Numbers and words are slices of the source. -/
def Token.read? (source : Text) (start : Nat) (c : Char) (t : Text) :
    Option (Except Fault (Token × Text)) :=
  if c.isDigit then readNumber? source start c t
  else if isNameStart c then (readWord? source start c t).map .ok
  else some (Token.read c t)

end Script

namespace Text

open Script

/-- The lexemes of the rest of a source, which begins at `offset`. -/
def scan? (source : Text) (depth line start offset : Nat) :
    Text → Option (Except Error Lexemes)
  | [] => some (.ok ⟨[], start⟩)
  | c :: t =>
    let next := offset + c.utf8Size
    if c = '\n' then
      if 0 < depth then source |>.scan? depth (line + 1) start next t
      else do
        let r ← source |>.scan? depth (line + 1) (line + 1) next t
        return r.map fun r => { r with items := ⟨start, .separator⟩ :: r.items }
    else if isBlank c then source |>.scan? depth line start next t
    else if c = '#' then
      let comment : Text := t.takeWhile (· ≠ '\n')
      source |>.scan? depth line start (next + comment.byteSize) (t.dropWhile (· ≠ '\n'))
    else do
      match ← Token.read? source offset c t with
      | .error fault => return .error (.malformed line fault)
      | .ok (k, rest) =>
        let taken := Text.byteSize t - Text.byteSize rest
        let r ← source |>.scan? (depthAfter depth k) line line (next + taken) rest
        return r.map fun r => { r with items := ⟨start, k⟩ :: r.items }
partial_fixpoint

end Text

namespace Script

/-- The lexemes of a source. -/
def Lexemes.ofText? (source : Text) : Option (Except Error Lexemes) :=
  source.scan? 0 1 1 0 source

section Source

variable (before : Text) (c : Char) (t : Text)

theorem readNumber?_eq (hc : c.isDigit) :
    readNumber? (before ++ c :: t) before.byteSize c t = some (readNumber c t) := by
  have hsize := utf8Size_of_isDigit hc
  have hne : c ≠ '_' := ne_of_class hc (by decide)
  obtain ⟨taken, ht, htext, hend⟩ := (numberEnd_counts false (before.byteSize + 1) t).push hne hsize
  rw [readNumber?, hsize, hend, ht]
  dsimp only
  rw [Text.slice?_append, Option.map_some, htext, readNumber]

theorem readWord?_eq : readWord? (before ++ c :: t) before.byteSize c t = some (readWord c t) := by
  have ht : c :: t = c :: t.takeWhile isNamePart ++ t.dropWhile isNamePart := by
    rw [List.cons_append, List.takeWhile_append_dropWhile]
  rw [readWord?, wordEnd_eq, Nat.add_assoc, ← Text.byteSize_cons, ht]
  dsimp only
  rw [Text.slice?_append]
  rfl

theorem Token.read?_eq :
    Token.read? (before ++ c :: t) before.byteSize c t = some (Token.read c t) := by
  unfold Token.read?
  by_cases hdigit : c.isDigit
  · rw [if_pos hdigit, readNumber?_eq _ _ _ hdigit, read_of_isDigit hdigit]
  · rw [if_neg hdigit]
    by_cases hname : isNameStart c
    · rw [if_pos hname, readWord?_eq, read_of_isNameStart hname]
      rfl
    · rw [if_neg hname]

end Source

/-- Wherever a scan is in its source, the slices that it takes are defined. -/
theorem scan?_eq (source : Text) (depth line start : Nat) (t : Text) :
    ∀ before, source = before ++ t →
      source.scan? depth line start (Text.byteSize before) t =
        some (scan depth line start t) := by
  -- what is taken from the front of the text has been scanned before the rest
  have next {before rest : Text} {c : Char} (taken : Text)
      (h : source = before ++ c :: (taken ++ rest)) :
      source = (before ++ c :: taken) ++ rest ∧
        Text.byteSize before + c.utf8Size + Text.byteSize taken =
          Text.byteSize (before ++ c :: taken) := by
    constructor
    · rw [h, List.append_assoc, List.cons_append]
    · rw [Text.byteSize_append, Text.byteSize_cons, Nat.add_assoc]
  induction depth, line, start, t using scan_induction with
  | nil depth line start =>
    intro before _
    rw [Text.scan?, scan_nil]
  | inside depth line start t h ih =>
    intro before hsource
    obtain ⟨hsource, hoffset⟩ := next [] hsource
    rw [Text.scan?, if_pos rfl, if_pos h, scan_newline_inside _ _ _ h, ← ih _ hsource, ← hoffset]
    rfl
  | newline line start t ih =>
    intro before hsource
    obtain ⟨hsource, hoffset⟩ := next [] hsource
    rw [Text.scan?, if_pos rfl, if_neg (Nat.lt_irrefl 0), scan_newline]
    rw [show Text.byteSize before + '\n'.utf8Size = _ from hoffset, ih _ hsource]
    rfl
  | blank depth line start c t hline hblank ih =>
    intro before hsource
    obtain ⟨hsource, hoffset⟩ := next [] hsource
    rw [Text.scan?, if_neg hline, if_pos hblank, scan_blank _ _ _ _ hline hblank, ← ih _ hsource,
      ← hoffset]
    rfl
  | comment depth line start t ih =>
    intro before hsource
    have ht : t = t.takeWhile (· ≠ '\n') ++ t.dropWhile (· ≠ '\n') :=
      List.takeWhile_append_dropWhile.symm
    obtain ⟨hsource, hoffset⟩ := next (t.takeWhile (· ≠ '\n')) (hsource.trans (by rw [← ht]))
    rw [Text.scan?, if_neg (by decide), if_neg (by decide), if_pos rfl, scan_comment]
    dsimp only
    rw [hoffset]
    exact ih _ hsource
  | fault depth line start c t fault hline hblank hcomment hread =>
    intro before hsource
    rw [Text.scan?, if_neg hline, if_neg hblank, if_neg hcomment, hsource, Token.read?_eq, hread,
      scan_fault _ _ _ hline hblank hcomment hread]
    rfl
  | token depth line start c t k rest hline hblank hcomment hread ih =>
    intro before hsource
    obtain ⟨taken, rfl⟩ := (takenFrom_of_read hread).suffix
    obtain ⟨hnext, hoffset⟩ := next taken hsource
    have htaken : Text.byteSize (taken ++ rest) - Text.byteSize rest = Text.byteSize taken := by
      rw [Text.byteSize_append, Nat.add_sub_cancel]
    have hread? : Token.read? source (Text.byteSize before) c (taken ++ rest) =
        some (.ok (k, rest)) := by
      rw [hsource, Token.read?_eq, hread]
    rw [Text.scan?, if_neg hline, if_neg hblank, if_neg hcomment, hread?,
      scan_token _ _ _ hline hblank hcomment hread]
    show ((Text.scan? _ _ _ _ (_ + _ + (_ - _)) _).bind fun r => _) = _
    rw [htaken, hoffset, ih _ hnext]
    rfl

/-- Every slice that the scan of a source takes is defined. -/
theorem Lexemes.ofText?_eq (source : Text) :
    Lexemes.ofText? source = some (Lexemes.ofText source) :=
  scan?_eq source 0 1 1 source [] rfl

end Script

end CalcDoc
