import CalcDoc.Template.Tag

/-!
# Tags are read from the front

Every reader of a part of a tag leaves an end of the text that it was given. So a tag is a stretch
of the text that it stands in, which ends with its closing braces.

- `Leaves`: a reader leaves an end of its text.
- `leaves_readParam`, `leaves_readExpression`: the parts of tags.
- `behindBrace_of_readTag`: a whole tag.
-/

namespace CalcDoc

/-! ## Texts -/

namespace Text

theorem skipSpace_suffix (t : Text) : skipSpace t <:+ t :=
  List.dropWhile_suffix _

/-- What follows the first character behind some blanks. -/
theorem suffix_of_skipSpace {t u : Text} {c : Char} (h : skipSpace t = c :: u) : u <:+ t :=
  (List.suffix_cons c u).trans (h ▸ skipSpace_suffix t)

theorem dropOne_suffix (c : Char) (t : Text) : dropOne c t <:+ t := by
  cases t with
  | nil => exact List.suffix_rfl
  | cons d t =>
    rw [dropOne]
    split
    · exact List.suffix_cons d t
    · exact List.suffix_rfl

theorem eq_append_of_stripStart? {start t rest : Text} (h : stripStart? start t = some rest) :
    t = start ++ rest := by
  induction start generalizing t with
  | nil => exact Option.some.inj h
  | cons c start ih =>
    cases t with
    | nil => cases h
    | cons d t =>
      rw [stripStart?] at h
      split at h
      · next hcd => rw [hcd, ih h, List.cons_append]
      · cases h

theorem suffix_of_stripStart? {start t rest : Text} (h : stripStart? start t = some rest) :
    rest <:+ t :=
  ⟨start, (eq_append_of_stripStart? h).symm⟩

theorem before_append (start rest : Text) : before (start ++ rest) rest = start := by
  rw [before, List.length_append, Nat.add_sub_cancel, List.take_left]

/-- What stands before an end of a text. -/
theorem before_append_of_suffix {t rest : Text} (h : rest <:+ t) : before t rest ++ rest = t := by
  obtain ⟨start, rfl⟩ := h
  rw [before_append]

end Text

namespace Template

/-- A reader that finds something leaves an end of its text. -/
def Leaves {α : Type} (read : Text → Option (α × Text)) : Prop :=
  ∀ t a rest, read t = some (a, rest) → rest <:+ t

/-- The same for a reader that finds nothing but the end of what it skips. -/
def Skips (skip : Text → Option Text) : Prop :=
  ∀ t rest, skip t = some rest → rest <:+ t

/-! ## Literals -/

theorem skips_skipWord (word : String) : Skips (skipWord word) := by
  intro t rest h
  unfold skipWord at h
  split at h
  · next hstart =>
    split at h
    · cases h
    · obtain rfl := Option.some.inj h
      exact Text.suffix_of_stripStart? hstart
  · cases h

theorem skips_skipQuoted (quote : Char) : Skips (skipQuoted quote) := by
  intro t rest h
  fun_induction skipQuoted quote t with
  | case1 c₁ c₂ c₃ c₄ t _ ih => exact (ih h).trans (List.suffix_append [_, _, _, _, _, _] t)
  | case2 => cases h
  | case3 c t _ _ ih => exact (ih h).trans (List.suffix_append [_, _] t)
  | case4 => cases h
  | case5 t =>
    obtain rfl := Option.some.inj h
    exact List.suffix_cons _ _
  | case6 => cases h
  | case7 c t _ _ _ _ ih => exact (ih h).trans (List.suffix_cons _ _)
  | case8 => cases h

theorem skips_skipString : Skips skipString := by
  intro t rest h
  unfold skipString at h
  split at h
  · exact (skips_skipQuoted _ _ _ h).trans (List.suffix_cons _ _)
  · exact (skips_skipQuoted _ _ _ h).trans (List.suffix_cons _ _)
  · cases h

theorem skipExponent_suffix (t : Text) : skipExponent t <:+ t := by
  unfold skipExponent
  split
  · split
    · exact List.suffix_rfl
    · exact ((List.dropWhile_suffix _).trans (Text.dropOne_suffix _ _)).trans
        (List.suffix_cons _ _)
  · exact List.suffix_rfl

theorem skips_skipNumber : Skips skipNumber := by
  intro t rest h
  unfold skipNumber at h
  dsimp only at h
  split at h
  · cases h
  · split at h
    · cases h
    · obtain rfl := Option.some.inj h
      refine (skipExponent_suffix _).trans ((List.dropWhile_suffix _).trans ?_)
      exact (Text.dropOne_suffix _ _).trans ((List.dropWhile_suffix _).trans
        (Text.dropOne_suffix _ _))

section Literals

variable {item : Text → Option Text} (hitem : Skips item)

include hitem

theorem skipItems_suffix (count : Nat) (t : Text) : skipItems item count t <:+ t := by
  induction count generalizing t with
  | zero => exact List.suffix_rfl
  | succ count ih =>
    rw [skipItems]
    split
    · next hspace =>
      split
      · next hread =>
        have hrest := (hitem _ _ hread).trans (Text.skipSpace_suffix _)
        exact (ih _).trans (hrest.trans (Text.suffix_of_skipSpace hspace))
      · exact List.suffix_rfl
    · exact List.suffix_rfl

theorem skips_skipSequence (close : Char) : Skips (skipSequence item close) := by
  intro t rest h
  unfold skipSequence at h
  dsimp only at h
  split at h
  · next hspace =>
    split at h
    · obtain rfl := Option.some.inj h
      have hfirst : (item (Text.skipSpace t)).getD t <:+ t := by
        cases hread : item (Text.skipSpace t) with
        | none => exact List.suffix_rfl
        | some u => exact (hitem _ _ hread).trans (Text.skipSpace_suffix t)
      exact (Text.suffix_of_skipSpace hspace).trans ((skipItems_suffix hitem _ _).trans hfirst)
    · cases h
  · cases h

theorem skips_skipField : Skips (skipField item) := by
  intro t rest h
  unfold skipField at h
  split at h
  · cases h
  · next hstring =>
    split at h
    · next hspace =>
      have hvalue := (hitem _ _ h).trans (Text.skipSpace_suffix _)
      exact hvalue.trans ((Text.suffix_of_skipSpace hspace).trans (skips_skipString _ _ hstring))
    · cases h

end Literals

theorem skips_skipLiteral (depth : Nat) : Skips (skipLiteral depth) := by
  induction depth with
  | zero =>
    intro t rest h
    cases h
  | succ depth ih =>
    intro t rest h
    unfold skipLiteral at h
    split at h
    · exact skips_skipString _ _ h
    · exact skips_skipString _ _ h
    · exact (skips_skipSequence ih _ _ _ h).trans (List.suffix_cons _ _)
    · exact (skips_skipSequence (skips_skipField ih) _ _ _ h).trans (List.suffix_cons _ _)
    · split at h
      · next hnumber => exact Option.some.inj h ▸ skips_skipNumber _ _ hnumber
      · split at h
        · next hnull => exact Option.some.inj h ▸ skips_skipWord _ _ _ hnull
        · split at h
          · next htrue => exact Option.some.inj h ▸ skips_skipWord _ _ _ htrue
          · exact skips_skipWord _ _ _ h

theorem leaves_readLiteral : Leaves readLiteral := by
  intro t v rest h
  obtain ⟨u, hskip, hu⟩ := Option.map_eq_some_iff.1 h
  obtain ⟨-, rfl⟩ := Prod.mk.inj hu
  exact skips_skipLiteral _ _ _ hskip

/-! ## Paths -/

theorem leaves_readName : Leaves readName := by
  intro t x rest h
  unfold readName at h
  split at h
  · cases h
  · obtain ⟨-, rfl⟩ := Prod.mk.inj (Option.some.inj h)
    exact List.dropWhile_suffix _

theorem skips_skipSeparator : Skips skipSeparator := by
  intro t rest h
  unfold skipSeparator at h
  split at h
  · exact Option.some.inj h ▸ List.suffix_cons _ _
  · exact Option.some.inj h ▸ List.suffix_cons _ _
  · cases h

theorem skips_skipStep (word : String) : Skips (skipStep word) := by
  intro t rest h
  obtain ⟨u, hu, hrest⟩ := Option.bind_eq_some_iff.1 h
  exact (skips_skipSeparator _ _ hrest).trans (Text.suffix_of_stripStart? hu)

/-- What may be skipped. -/
theorem Skips.getD_suffix {skip : Text → Option Text} (h : Skips skip) (t : Text) :
    (skip t).getD t <:+ t := by
  cases hskip : skip t with
  | none => exact List.suffix_rfl
  | some rest => exact h _ _ hskip

theorem skips_stripStart? (start : Text) : Skips (Text.stripStart? start) :=
  fun _ _ h => Text.suffix_of_stripStart? h

theorem skipCurrent_suffix (t : Text) : skipCurrent t <:+ t := by
  unfold skipCurrent
  split
  · next h => exact skips_skipStep _ _ _ h
  · exact (skips_stripStart? _).getD_suffix t

theorem readUps_suffix (most : Nat) (t : Text) : (readUps most t).2 <:+ t := by
  induction most generalizing t with
  | zero => exact List.suffix_rfl
  | succ most ih =>
    rw [readUps]
    split
    · next hstep => exact (ih _).trans (skips_skipStep _ _ _ hstep)
    · exact List.suffix_rfl

theorem leaves_readPart : Leaves readPart := by
  intro t x rest h
  unfold readPart at h
  split at h
  · split at h
    · next hdrop =>
      obtain ⟨-, rfl⟩ := Prod.mk.inj (Option.some.inj h)
      exact (List.suffix_cons _ _).trans
        ((hdrop ▸ List.dropWhile_suffix _).trans (List.suffix_cons _ _))
    · cases h
  · exact leaves_readName _ _ _ h

theorem readParts_suffix (count : Nat) (t : Text) : (readParts count t).2 <:+ t := by
  induction count generalizing t with
  | zero => exact List.suffix_rfl
  | succ count ih =>
    rw [readParts]
    split
    · next h =>
      obtain ⟨u, hu, hpart⟩ := Option.bind_eq_some_iff.1 h
      exact (ih _).trans ((leaves_readPart _ _ _ hpart).trans (skips_skipSeparator _ _ hu))
    · exact List.suffix_rfl

theorem leaves_readPath : Leaves readPath := by
  intro t p rest h
  unfold readPath at h
  dsimp only at h
  split at h
  · cases h
  · next hpart =>
    obtain ⟨-, rfl⟩ := Prod.mk.inj (Option.some.inj h)
    refine (readParts_suffix _ _).trans ((leaves_readPart _ _ _ hpart).trans ?_)
    refine (readUps_suffix _ _).trans (((skips_stripStart? _).getD_suffix _).trans ?_)
    exact ((skips_skipStep _).getD_suffix _).trans (skipCurrent_suffix t)

/-! ## Parameters -/

theorem leaves_readLabel : Leaves readLabel := by
  intro t x rest h
  unfold readLabel at h
  split at h
  · cases h
  · next hname =>
    split at h
    · next hspace =>
      obtain ⟨-, rfl⟩ := Prod.mk.inj (Option.some.inj h)
      exact (Text.skipSpace_suffix _).trans
        ((Text.suffix_of_skipSpace hspace).trans (leaves_readName _ _ _ hname))
    · cases h

section Params

variable {param : Text → Option (Param × Text)} (hparam : Leaves param)

include hparam

theorem suffix_of_readNamed {t rest : Text} {x : String} {p : Param}
    (h : readNamed param t = some (x, p, rest)) : rest <:+ t := by
  unfold readNamed at h
  split at h
  · cases h
  · next hlabel =>
    obtain ⟨⟨q, u⟩, hread, hu⟩ := Option.map_eq_some_iff.1 h
    obtain ⟨-, hu⟩ := Prod.mk.inj hu
    obtain ⟨-, rfl⟩ := Prod.mk.inj hu
    exact (hparam _ _ _ hread).trans (leaves_readLabel _ _ _ hlabel)

theorem readParams_suffix (count : Nat) (t : Text) : (readParams param count t).2 <:+ t := by
  induction count generalizing t with
  | zero => exact List.suffix_rfl
  | succ count ih =>
    rw [readParams]
    split
    · next hnamed =>
      exact (ih _).trans ((suffix_of_readNamed hparam hnamed).trans (Text.skipSpace_suffix t))
    · split
      · next hread => exact (ih _).trans ((hparam _ _ _ hread).trans (Text.skipSpace_suffix t))
      · exact List.suffix_rfl

theorem leaves_readLine : Leaves (readLine param) := by
  intro t c rest h
  unfold readLine at h
  split at h
  · cases h
  · next hname =>
    obtain ⟨-, rfl⟩ := Prod.mk.inj (Option.some.inj h)
    exact (readParams_suffix hparam _ _).trans (leaves_readName _ _ _ hname)

theorem leaves_readCall : Leaves (readCall param) := by
  intro t c rest h
  unfold readCall at h
  split at h
  · next hline =>
    split at h
    · cases h
    · obtain ⟨-, rfl⟩ := Prod.mk.inj (Option.some.inj h)
      exact leaves_readLine hparam _ _ _ hline
  · cases h

theorem leaves_readSub : Leaves (readSub param) := by
  intro t p rest h
  unfold readSub at h
  dsimp only at h
  split at h
  · cases h
  · next c u hinside =>
    have hu : u <:+ t := by
      refine List.IsSuffix.trans ?_ (Text.skipSpace_suffix t)
      split at hinside
      · next hcall =>
        obtain rfl := Option.some.inj hinside
        exact leaves_readCall hparam _ _ _ hcall
      · obtain ⟨⟨q, v⟩, hpath, hv⟩ := Option.map_eq_some_iff.1 hinside
        obtain ⟨-, rfl⟩ := Prod.mk.inj hv
        exact leaves_readPath _ _ _ hpath
    split at h
    · next hspace =>
      obtain ⟨-, rfl⟩ := Prod.mk.inj (Option.some.inj h)
      exact (Text.suffix_of_skipSpace hspace).trans hu
    · cases h

end Params

theorem leaves_readParam (depth : Nat) : Leaves (readParam depth) := by
  induction depth with
  | zero =>
    intro t p rest h
    cases h
  | succ depth ih =>
    intro t p rest h
    unfold readParam at h
    split at h
    · cases h
    · split at h
      · next hliteral =>
        obtain ⟨v, -, hv⟩ := Option.map_eq_some_iff.1 h
        obtain ⟨-, rfl⟩ := Prod.mk.inj hv
        exact leaves_readLiteral _ _ _ hliteral
      · split at h
        · next hpath =>
          obtain ⟨-, rfl⟩ := Prod.mk.inj (Option.some.inj h)
          exact leaves_readPath _ _ _ hpath
        · split at h
          · exact (leaves_readSub ih _ _ _ h).trans (List.suffix_cons _ _)
          · cases h

theorem leaves_readValue : Leaves readValue := by
  intro t p rest h
  unfold readValue at h
  split at h
  · exact (leaves_readSub (leaves_readParam _) _ _ _ h).trans (List.suffix_cons _ _)
  · obtain ⟨⟨q, u⟩, hpath, hu⟩ := Option.map_eq_some_iff.1 h
    obtain ⟨-, rfl⟩ := Prod.mk.inj hu
    exact leaves_readPath _ _ _ hpath

/-! ## Tags -/

theorem readMark_suffix (t : Text) : (readMark t).2 <:+ t := by
  unfold readMark
  split
  · next hspace => exact Text.suffix_of_skipSpace hspace
  · exact List.suffix_rfl

theorem readBinders_suffix (t : Text) : (readBinders t).2 <:+ t := by
  unfold readBinders
  split
  · next has =>
    have hwords := (List.suffix_cons _ _).trans (Text.suffix_of_skipSpace has)
    split
    · next hbar =>
      have hopen := (Text.suffix_of_skipSpace hbar).trans hwords
      split
      · exact List.suffix_rfl
      · next hx =>
        have hfirst := (leaves_readName _ _ _ hx).trans ((Text.skipSpace_suffix _).trans hopen)
        split
        · next hclose => exact (Text.suffix_of_skipSpace hclose).trans hfirst
        · split
          · exact List.suffix_rfl
          · next hy =>
            have hsecond := (leaves_readName _ _ _ hy).trans
              ((Text.skipSpace_suffix _).trans hfirst)
            split
            · next hclose => exact (Text.suffix_of_skipSpace hclose).trans hsecond
            · exact List.suffix_rfl
    · exact List.suffix_rfl
  · exact List.suffix_rfl

theorem suffix_of_readOpening {t rest : Text} {c : Call} {xs : List String}
    (h : readOpening t = some (c, xs, rest)) : rest <:+ t := by
  unfold readOpening at h
  split at h
  · cases h
  · next hline =>
    obtain ⟨-, hbinders⟩ := Prod.mk.inj (Option.some.inj h)
    have hrest := readBinders_suffix ‹Text›
    rw [hbinders] at hrest
    exact hrest.trans ((leaves_readLine (leaves_readParam _) _ _ _ hline).trans
      (Text.skipSpace_suffix t))

theorem leaves_readExpression : Leaves readExpression := by
  intro t tag rest h
  unfold readExpression at h
  dsimp only at h
  split at h
  · next hcall =>
    obtain ⟨-, rfl⟩ := Prod.mk.inj (Option.some.inj h)
    exact (leaves_readCall (leaves_readParam _) _ _ _ hcall).trans (Text.skipSpace_suffix t)
  · obtain ⟨⟨p, u⟩, hvalue, hu⟩ := Option.map_eq_some_iff.1 h
    obtain ⟨-, rfl⟩ := Prod.mk.inj hu
    exact (leaves_readValue _ _ _ hvalue).trans (Text.skipSpace_suffix t)

/-- The rest of a text behind a closing brace. -/
def BehindBrace (t rest : Text) : Prop :=
  '}' :: rest <:+ t

theorem BehindBrace.trans_suffix {t u rest : Text} (h : BehindBrace t rest) (hu : t <:+ u) :
    BehindBrace u rest :=
  List.IsSuffix.trans h hu

theorem behindBrace_of_stripStart? {braces t rest : Text}
    (h : Text.stripStart? (braces ++ ['}']) t = some rest) : BehindBrace t rest :=
  ⟨braces, by rw [Text.eq_append_of_stripStart? h]; simp⟩

/-- A tag ends with closing braces, of which the last one is enough here. -/
theorem behindBrace_of_finishTag {mark : Bool} {braces : String} (start : Text) {t rest : Text}
    {r : Option (Tag × Text)} {m : MarkedTag} (hbraces : braces.toList = start ++ ['}'])
    (hr : ∀ tag u, r = some (tag, u) → u <:+ t) (h : finishTag mark braces r = some (m, rest)) :
    BehindBrace t rest := by
  unfold finishTag at h
  split at h
  · cases h
  · next tag u =>
    obtain ⟨⟨after, v⟩, hend, hv⟩ := Option.map_eq_some_iff.1 h
    obtain ⟨-, rfl⟩ := Prod.mk.inj hv
    unfold readEnd at hend
    obtain ⟨w, hstrip, hw⟩ := Option.map_eq_some_iff.1 hend
    obtain ⟨-, rfl⟩ := Prod.mk.inj hw
    rw [hbraces] at hstrip
    refine (behindBrace_of_stripStart? hstrip).trans_suffix ?_
    exact (Text.skipSpace_suffix _).trans ((readMark_suffix u).trans (hr tag u rfl))

theorem behindBrace_of_skipPast (start : Text) {t rest : Text}
    (h : skipPast (start ++ ['}']) t = some rest) : BehindBrace t rest := by
  induction t with
  | nil => cases h
  | cons c t ih =>
    rw [skipPast] at h
    split at h
    · next hstrip =>
      obtain rfl := Option.some.inj h
      exact behindBrace_of_stripStart? hstrip
    · exact (ih h).trans_suffix (List.suffix_cons c t)

theorem behindBrace_of_skipComment {t rest : Text} (h : skipComment t = some rest) :
    BehindBrace t rest := by
  unfold skipComment at h
  split at h
  · next t =>
    dsimp only at h
    split at h
    · next hdashed =>
      obtain rfl := Option.some.inj h
      obtain ⟨u, hstrip, hu⟩ := Option.bind_eq_some_iff.1 hdashed
      have hrest : BehindBrace u _ := behindBrace_of_skipPast "--\x7d".toList hu
      exact hrest.trans_suffix ((Text.suffix_of_stripStart? hstrip).trans
        ((Text.skipSpace_suffix t).trans (List.suffix_cons _ _)))
    · have hrest : BehindBrace t rest := behindBrace_of_skipPast "\x7d".toList h
      exact hrest.trans_suffix (List.suffix_cons _ _)
  · cases h

theorem behindBrace_of_readTriple {t rest : Text} {m : MarkedTag}
    (h : readTriple t = some (m, rest)) : BehindBrace t rest := by
  unfold readTriple at h
  split at h
  · next t =>
    refine behindBrace_of_finishTag "\x7d\x7d".toList rfl (fun tag u hr => ?_) h
    exact (leaves_readExpression _ _ _ hr).trans
      ((readMark_suffix t).trans (List.suffix_cons _ _))
  · cases h

theorem skips_skipElse : Skips skipElse := by
  intro t rest h
  unfold skipElse at h
  split at h
  · exact Option.some.inj h ▸ List.suffix_cons _ _
  · exact Text.suffix_of_stripStart? h

/-- The reading of a block that is opened, as a tag of some kind. -/
theorem suffix_of_readOpening_map {t u : Text} {kind : Call → List String → Tag} {tag : Tag}
    (h : ((readOpening t).map fun (c, xs, rest) => (kind c xs, rest)) = some (tag, u)) :
    u <:+ t := by
  obtain ⟨⟨c, xs, v⟩, hopening, hv⟩ := Option.map_eq_some_iff.1 h
  obtain ⟨-, rfl⟩ := Prod.mk.inj hv
  exact suffix_of_readOpening hopening

theorem behindBrace_of_readElse {mark : Bool} {t rest : Text} {m : MarkedTag}
    (h : readElse mark t = some (m, rest)) : BehindBrace t rest := by
  unfold readElse at h
  split at h
  · cases h
  · next u helse =>
    refine BehindBrace.trans_suffix ?_ (skips_skipElse _ _ helse)
    split at h
    · next r hr =>
      rw [h] at hr
      refine behindBrace_of_finishTag "\x7d".toList rfl (fun tag v hv => ?_) hr
      obtain ⟨-, rfl⟩ := Prod.mk.inj (Option.some.inj hv)
      exact List.suffix_rfl
    · exact behindBrace_of_finishTag "\x7d".toList rfl
        (fun tag v hv => suffix_of_readOpening_map hv) h

theorem behindBrace_of_readMarked {mark : Bool} {t rest : Text} {m : MarkedTag}
    (h : readMarked mark t = some (m, rest)) : BehindBrace t rest := by
  unfold readMarked at h
  split at h
  · refine behindBrace_of_finishTag "\x7d".toList rfl (fun tag v hv => ?_) h
    exact (suffix_of_readOpening_map hv).trans (List.suffix_cons _ _)
  · next t =>
    refine behindBrace_of_finishTag "\x7d".toList rfl (fun tag v hv => ?_) h
    obtain ⟨⟨p, w⟩, hvalue, hw⟩ := Option.map_eq_some_iff.1 hv
    have hsuffix : w <:+ '/' :: t :=
      (leaves_readValue _ _ _ hvalue).trans
        ((Text.skipSpace_suffix _).trans (List.suffix_cons _ _))
    dsimp only at hw
    split at hw <;> exact (Prod.mk.inj hw).2 ▸ hsuffix
  · refine behindBrace_of_finishTag "\x7d".toList rfl (fun tag v hv => ?_) h
    obtain ⟨⟨p, w⟩, hvalue, hw⟩ := Option.map_eq_some_iff.1 hv
    obtain ⟨-, rfl⟩ := Prod.mk.inj hw
    exact (leaves_readValue _ _ _ hvalue).trans
      ((Text.skipSpace_suffix _).trans (List.suffix_cons _ _))
  · split at h
    · cases h
    · next hexpression =>
      split at h
      · next hspace =>
        refine behindBrace_of_finishTag "\x7d".toList rfl (fun tag v hv => ?_) h
        obtain ⟨-, rfl⟩ := Prod.mk.inj (Option.some.inj hv)
        exact (Text.suffix_of_skipSpace hspace).trans
          ((leaves_readExpression _ _ _ hexpression).trans (List.suffix_cons _ _))
      · cases h
  · split at h
    · next r hr =>
      rw [h] at hr
      exact behindBrace_of_readElse hr
    · exact behindBrace_of_finishTag "\x7d".toList rfl
        (fun tag v hv => leaves_readExpression _ _ _ hv) h

/-- A tag, of which the opening braces have been read, is a stretch of text that ends with a closing
brace. -/
theorem behindBrace_of_readTag {t rest : Text} {m : MarkedTag} (h : readTag t = some (m, rest)) :
    BehindBrace t rest := by
  unfold readTag at h
  split at h
  · next hcomment =>
    obtain ⟨-, rfl⟩ := Prod.mk.inj (Option.some.inj h)
    exact behindBrace_of_skipComment hcomment
  · split at h
    · next r hr =>
      rw [h] at hr
      exact behindBrace_of_readTriple hr
    · exact (behindBrace_of_readMarked h).trans_suffix
        ((Text.skipSpace_suffix _).trans (readMark_suffix t))

end Template

end CalcDoc
