import CalcDoc.Proofs.Definedness.Slices
import CalcDoc.Proofs.Documents.Fences
import CalcDoc.Proofs.Templates.Progress
import Mathlib.Data.Set.Card

/-!
# References as runs of braces

The references of a line are counted by looking for two braces again and again, each time from the
byte behind the last two. Braces of a longer run may thus be found at several places, but only those
at its end are followed by what makes a reference. So the references are the runs of two or more
braces with such a text behind them.

- `Refers`: what makes a run a reference, said of the text behind it.
- `HasRun`, `referringRuns`: the runs of braces of a line, and those that are references.
- `countReferences_run`: a run counts once or not at all, by induction in steps of two braces.
- `encard_referringRuns`: the count is the number of these runs, by induction from run to run.
- `Text.countFrom?`, `countFrom?_eq`: the count with the slices that it takes, all of them defined.
- `countReferences_eq_runs`: both together.
-/

namespace CalcDoc

/-! ## Runs -/

/-- A text goes on as a reference: perhaps `~`, any blanks, the name of the helper, and a blank. -/
def Refers (helper t : Text) : Prop :=
  ∃ (mark blanks : Text) (c : Char) (rest : Text),
    t = mark ++ (blanks ++ (helper ++ c :: rest)) ∧ (mark = [] ∨ mark = ['~']) ∧
      (∀ b ∈ blanks, isBlank b) ∧ isBlank c

/-- A line has a run of `n` braces behind its first `start` characters, and `behind` after the run.
No brace stands before the run or behind it. -/
def HasRun (line : Text) (start n : Nat) (behind : Text) : Prop :=
  ∃ ahead : Text, line = ahead ++ (List.replicate n '{' ++ behind) ∧ ahead.length = start ∧
    ahead.getLast? ≠ some '{' ∧ behind.head? ≠ some '{'

/-- The runs of two or more braces that are references, each as its place and its length. -/
def referringRuns (helper line : Text) : Set (Nat × Nat) :=
  {r | 2 ≤ r.2 ∧ ∃ behind, HasRun line r.1 r.2 behind ∧ Refers helper behind}

/-- The braces that a text begins with. -/
theorem exists_run (t : Text) :
    ∃ n behind, t = List.replicate n '{' ++ behind ∧ behind.head? ≠ some '{' := by
  induction t with
  | nil => exact ⟨0, [], rfl, by simp⟩
  | cons c t ih =>
    by_cases hc : c = '{'
    · obtain ⟨n, behind, rfl, hbehind⟩ := ih
      exact ⟨n + 1, behind, by rw [hc, List.replicate_succ, List.cons_append], hbehind⟩
    · exact ⟨0, c :: t, rfl, by simpa using hc⟩

/-- How many braces a text begins with, and what follows them. -/
theorem replicate_append_inj {m n : Nat} {t u : Text} (ht : t.head? ≠ some '{')
    (hu : u.head? ≠ some '{') (h : List.replicate m '{' ++ t = List.replicate n '{' ++ u) :
    m = n ∧ t = u := by
  induction m generalizing n with
  | zero =>
    cases n with
    | zero => exact ⟨rfl, h⟩
    | succ n =>
      obtain rfl : t = _ := h
      exact absurd rfl ht
  | succ m ih =>
    cases n with
    | zero =>
      obtain rfl : _ = u := h
      exact absurd rfl hu
    | succ n =>
      obtain ⟨hmn, htu⟩ := ih (List.cons.inj h).2
      exact ⟨congrArg Nat.succ hmn, htu⟩

/-- What holds of a line if it holds behind a character that is no brace, and behind a run. -/
theorem runs_induction {motive : Text → Prop} (nil : motive [])
    (other : ∀ c t, c ≠ '{' → motive t → motive (c :: t))
    (run : ∀ n behind, behind.head? ≠ some '{' → motive behind →
      motive (List.replicate (n + 1) '{' ++ behind)) (line : Text) : motive line :=
  match line with
  | [] => nil
  | c :: t => by
    by_cases hc : c = '{'
    · obtain ⟨n, behind, ht, hhead⟩ := exists_run t
      have hlength : behind.length < t.length + 1 := by
        rw [ht, List.length_append]
        omega
      have hline := run n behind hhead (runs_induction nil other run behind)
      rwa [List.replicate_succ, List.cons_append, ← ht, ← hc] at hline
    · exact other c t hc (runs_induction nil other run t)
termination_by line.length

/-! ## What the count looks for -/

/-- Whether the text behind two braces and perhaps a third goes on as a reference. -/
def followsHelper (helper t : Text) : Bool :=
  match Text.stripStart? helper (Text.trimStart (Text.dropOne '~' t)) with
  | some (c :: _) => isBlank c
  | _ => false

theorem isReference_eq_followsHelper (helper t : Text) :
    isReference helper t = followsHelper helper (Text.dropOne '{' t) := rfl

theorem dropOne_of_head? {c : Char} {t : Text} (h : t.head? ≠ some c) : Text.dropOne c t = t := by
  cases t with
  | nil => rfl
  | cons d t =>
    rw [Text.dropOne, if_neg]
    rintro rfl
    exact h rfl

theorem countReferences_cons {helper : Text} {c : Char} {t : Text}
    (h : c = '{' → t.head? ≠ some '{') :
    countReferences helper (c :: t) = countReferences helper t := by
  rw [countReferences]
  rintro u hc rfl
  exact h hc rfl

section Helper

/- The name of the helper is not empty, and its first character can be neither a brace nor the mark
that may stand before it, nor a blank. -/
variable {first : Char} {name : Text} (hbrace : first ≠ '{') (hmark : first ≠ '~')
  (hblank : isBlank first = false)

include hmark hblank in
/-- The marks and blanks that are skipped are all that may stand before the name. -/
theorem followsHelper_iff {t : Text} :
    followsHelper (first :: name) t ↔ Refers (first :: name) t := by
  constructor
  · intro h
    rw [followsHelper] at h
    split at h
    · next c rest hstrip =>
      have htrim := Text.eq_append_of_stripStart? hstrip
      refine ⟨if t.head? = some '~' then ['~'] else [], (Text.dropOne '~' t).takeWhile isBlank, c,
        rest, ?_, ?_, fun b hb => List.all_eq_true.1 List.all_takeWhile b hb, h⟩
      · rw [← htrim, Text.trimStart, List.takeWhile_append_dropWhile]
        split
        · next ht =>
          obtain ⟨u, rfl⟩ := List.head?_eq_some_iff.1 ht
          rfl
        · next ht => rw [dropOne_of_head? ht, List.nil_append]
      · split
        · exact .inr rfl
        · exact .inl rfl
    · cases h
  · rintro ⟨mark, blanks, c, rest, rfl, hm, hblanks, hc⟩
    -- without the mark a text of this form begins with a blank or with the name
    have hdrop : Text.dropOne '~' (mark ++ (blanks ++ (first :: name ++ c :: rest))) =
        blanks ++ (first :: name ++ c :: rest) := by
      rcases hm with rfl | rfl
      · rw [List.nil_append]
        refine dropOne_of_head? ?_
        cases blanks with
        | nil => simpa using hmark
        | cons b blanks =>
          intro hb
          obtain rfl : b = '~' := Option.some.inj hb
          exact absurd (hblanks _ List.mem_cons_self) (by decide)
      · rfl
    have htrim : Text.trimStart (blanks ++ (first :: name ++ c :: rest)) =
        first :: name ++ c :: rest := by
      rw [Text.trimStart, List.dropWhile_append_of_pos hblanks, List.cons_append,
        List.dropWhile_cons_of_neg (by simp [hblank])]
    rw [followsHelper, hdrop, htrim, Text.stripStart?_append]
    exact hc

include hbrace

/-- No reference has more braces behind its first three. -/
theorem followsHelper_brace (t : Text) : followsHelper (first :: name) ('{' :: t) = false := by
  have hdrop : Text.dropOne '~' ('{' :: t) = '{' :: t := rfl
  have htrim : Text.trimStart ('{' :: t) = '{' :: t := rfl
  rw [followsHelper, hdrop, htrim, Text.stripStart?, if_neg hbrace]

/-- What follows two braces of a run is a reference only behind the last or the last but one. -/
theorem isReference_run {behind : Text} (hhead : behind.head? ≠ some '{') (n : Nat) :
    isReference (first :: name) (List.replicate n '{' ++ behind) =
      (decide (n < 2) && followsHelper (first :: name) behind) := by
  rw [isReference_eq_followsHelper]
  match n with
  | 0 =>
    rw [List.replicate_zero, List.nil_append, dropOne_of_head? hhead]
    rfl
  | 1 => rfl
  | n + 2 => exact followsHelper_brace hbrace _

/-- A run of two or more braces counts once if a reference follows it, and else not at all. -/
theorem countReferences_run {behind : Text} (hhead : behind.head? ≠ some '{') :
    ∀ n, countReferences (first :: name) (List.replicate n '{' ++ behind) =
      (if 2 ≤ n ∧ followsHelper (first :: name) behind then 1 else 0) +
        countReferences (first :: name) behind
  | 0 => by
    rw [List.replicate_zero, List.nil_append, if_neg (by omega), Nat.zero_add]
  | 1 => by
    rw [if_neg (by omega), Nat.zero_add]
    exact countReferences_cons fun _ => hhead
  | n + 2 => by
    have ih := countReferences_run hhead n
    rw [List.replicate_succ, List.replicate_succ, List.cons_append, List.cons_append,
      countReferences, ih, isReference_run hbrace hhead, ← Nat.add_assoc]
    congr 1
    -- the count of the last two or three braces is the only one
    by_cases hn : n < 2
    · have hlast : ¬(2 ≤ n) := Nat.not_le.2 hn
      simp [hn, hlast]
    · have hmore : 2 ≤ n := Nat.not_lt.1 hn
      simp [hn, hmore]

end Helper

/-! ## The runs of a line -/

/-- A run that begins behind the first part of a line is one of the second, unless the cut goes
through it. -/
theorem hasRun_append {p t : Text} (hcut : p.getLast? ≠ some '{' ∨ t.head? ≠ some '{')
    {start n : Nat} {behind : Text} (hn : 0 < n) :
    HasRun (p ++ t) (p.length + start) n behind ↔ HasRun t start n behind := by
  constructor
  · rintro ⟨ahead, hline, hstart, hbefore, hbehind⟩
    obtain ⟨ahead, rfl⟩ : p <+: ahead := by
      refine List.prefix_of_prefix_length_le (List.prefix_append p t) ?_ (by omega)
      rw [hline]
      exact List.prefix_append ahead _
    rw [List.append_assoc] at hline
    rw [List.length_append] at hstart
    refine ⟨ahead, List.append_cancel_left hline, by omega, ?_, hbehind⟩
    intro hlast
    rw [List.getLast?_append, hlast] at hbefore
    exact hbefore rfl
  · rintro ⟨ahead, rfl, rfl, hbefore, hbehind⟩
    refine ⟨p ++ ahead, by rw [List.append_assoc], List.length_append, ?_, hbehind⟩
    rw [List.getLast?_append]
    cases hlast : ahead.getLast? with
    | some d => rwa [hlast] at hbefore
    | none =>
      -- a run at the cut has a brace behind it, so none stands before it
      obtain rfl := List.getLast?_eq_none_iff.1 hlast
      obtain ⟨n, rfl⟩ : ∃ k, n = k + 1 := ⟨n - 1, by omega⟩
      exact hcut.resolve_right fun ht => ht rfl

/-- A run that begins among the braces at the beginning of a line consists of them. -/
theorem hasRun_first {n : Nat} {behind : Text} (hhead : behind.head? ≠ some '{')
    {start m : Nat} {behind' : Text}
    (h : HasRun (List.replicate (n + 1) '{' ++ behind) start m behind') (hstart : start < n + 1) :
    start = 0 ∧ m = n + 1 ∧ behind' = behind := by
  obtain ⟨ahead, hline, rfl, hbefore, hbehind⟩ := h
  have hahead : ahead <+: List.replicate (n + 1) '{' := by
    have hwhole : ahead <+: List.replicate (n + 1) '{' ++ behind := by
      rw [hline]
      exact List.prefix_append ahead _
    refine List.prefix_of_prefix_length_le hwhole (List.prefix_append _ behind) ?_
    rw [List.length_replicate]
    omega
  have hnil : ahead = [] := by
    by_contra hne
    have hlast := List.getLast?_eq_some_getLast hne
    have hmem := hahead.subset (List.getLast_mem hne)
    rw [List.eq_of_mem_replicate hmem] at hlast
    exact hbefore hlast
  subst hnil
  have hsame := replicate_append_inj hhead hbehind hline
  exact ⟨rfl, hsame.1.symm, hsame.2.symm⟩

/-- The runs of a line are those that begin in its first part and those of the second, if the cut
goes through no run. -/
theorem encard_referringRuns_append (helper : Text) {p t : Text}
    (hcut : p.getLast? ≠ some '{' ∨ t.head? ≠ some '{') :
    (referringRuns helper (p ++ t)).encard =
      {r ∈ referringRuns helper (p ++ t) | r.1 < p.length}.encard +
        (referringRuns helper t).encard := by
  have hinjective : Function.Injective fun r : Nat × Nat => (p.length + r.1, r.2) := by
    rintro ⟨a, b⟩ ⟨c, d⟩ h
    simpa using h
  have hunion : referringRuns helper (p ++ t) =
      {r ∈ referringRuns helper (p ++ t) | r.1 < p.length} ∪
        (fun r => (p.length + r.1, r.2)) '' referringRuns helper t := by
    ext ⟨start, n⟩
    constructor
    · rintro ⟨hn, behind, hrun, hrefers⟩
      by_cases hstart : start < p.length
      · exact .inl ⟨⟨hn, behind, hrun, hrefers⟩, hstart⟩
      · obtain ⟨start, rfl⟩ := Nat.exists_eq_add_of_le (Nat.not_lt.1 hstart)
        have hn : 2 ≤ n := hn
        have hrun := (hasRun_append hcut (by omega)).1 hrun
        exact .inr ⟨(start, n), ⟨hn, behind, hrun, hrefers⟩, rfl⟩
    · rintro (⟨h, -⟩ | ⟨⟨start, n⟩, ⟨hn, behind, hrun, hrefers⟩, h⟩)
      · exact h
      · obtain ⟨rfl, rfl⟩ := Prod.mk.inj h
        have hn : 2 ≤ n := hn
        exact ⟨hn, behind, (hasRun_append hcut (by omega)).2 hrun, hrefers⟩
  have hdisjoint : Disjoint {r ∈ referringRuns helper (p ++ t) | r.1 < p.length}
      ((fun r => (p.length + r.1, r.2)) '' referringRuns helper t) := by
    rw [Set.disjoint_left]
    rintro _ ⟨-, hstart⟩ ⟨r, -, rfl⟩
    exact absurd hstart (Nat.not_lt.2 (Nat.le_add_right _ _))
  conv_lhs => rw [hunion]
  rw [Set.encard_union_eq hdisjoint, hinjective.encard_image]

/-- No run begins at a character that is no brace. -/
theorem no_run_at_other (helper : Text) {c : Char} (hc : c ≠ '{') (t : Text) :
    {r ∈ referringRuns helper ([c] ++ t) | r.1 < [c].length} = ∅ := by
  refine Set.eq_empty_iff_forall_notMem.2 ?_
  rintro ⟨start, n⟩ ⟨⟨hn, behind, ⟨ahead, hline, hlength, -⟩, -⟩, hstart⟩
  obtain rfl : ahead = [] := List.eq_nil_of_length_eq_zero (hlength.trans (Nat.lt_one_iff.1 hstart))
  obtain ⟨n, rfl⟩ : ∃ k, n = k + 1 := ⟨n - 1, by have hn : 2 ≤ n := hn; omega⟩
  exact hc (List.cons.inj hline).1

/-- The braces at the beginning of a line are one run. -/
theorem one_run_at_braces {helper : Text} {n : Nat} {behind : Text}
    (hhead : behind.head? ≠ some '{') :
    {r ∈ referringRuns helper (List.replicate (n + 1) '{' ++ behind) |
        r.1 < (List.replicate (n + 1) '{').length} =
      {r | r = (0, n + 1) ∧ 2 ≤ n + 1 ∧ Refers helper behind} := by
  rw [List.length_replicate]
  ext ⟨start, m⟩
  constructor
  · rintro ⟨⟨hm, behind', hrun, hrefers⟩, hstart⟩
    obtain ⟨rfl, rfl, rfl⟩ := hasRun_first hhead hrun hstart
    exact ⟨rfl, hm, hrefers⟩
  · rintro ⟨h, hn, hrefers⟩
    obtain ⟨rfl, rfl⟩ := Prod.mk.inj h
    have hrun : HasRun (List.replicate (n + 1) '{' ++ behind) 0 (n + 1) behind :=
      ⟨[], rfl, rfl, by simp, hhead⟩
    exact ⟨⟨hn, behind, hrun, hrefers⟩, Nat.succ_pos n⟩

theorem referringRuns_nil (helper : Text) : referringRuns helper [] = ∅ := by
  refine Set.eq_empty_iff_forall_notMem.2 ?_
  rintro ⟨start, n⟩ ⟨hn, behind, ⟨ahead, hline, -⟩, -⟩
  have hlength := congrArg List.length hline
  rw [List.length_append, List.length_append, List.length_replicate, List.length_nil] at hlength
  have hn : 2 ≤ n := hn
  omega

theorem encard_eq_and {α : Type} (a : α) (p : Prop) [Decidable p] :
    {x | x = a ∧ p}.encard = if p then 1 else 0 := by
  split
  · next hp =>
    have hone : {x | x = a ∧ p} = {a} := by
      ext x
      exact and_iff_left hp
    rw [hone, Set.encard_singleton]
  · next hp =>
    have hnone : {x | x = a ∧ p} = ∅ := Set.eq_empty_iff_forall_notMem.2 fun _ hx => hp hx.2
    rw [hnone, Set.encard_empty]

/-- The count of references is the number of runs that are references. -/
theorem encard_referringRuns {first : Char} (hbrace : first ≠ '{') (hmark : first ≠ '~')
    (hblank : isBlank first = false) (name line : Text) :
    (referringRuns (first :: name) line).encard = countReferences (first :: name) line := by
  induction line using runs_induction with
  | nil =>
    rw [referringRuns_nil, Set.encard_empty]
    rfl
  | other c t hc ih =>
    have hcut : [c].getLast? ≠ some '{' := fun h => hc (Option.some.inj h)
    have hcount : countReferences (first :: name) (c :: t) = countReferences (first :: name) t :=
      countReferences_cons fun h => absurd h hc
    have hruns := encard_referringRuns_append (first :: name) (t := t) (.inl hcut)
    rw [no_run_at_other _ hc, Set.encard_empty, zero_add, ih, ← hcount] at hruns
    exact hruns
  | run n behind hhead ih =>
    rw [encard_referringRuns_append _ (.inr hhead), one_run_at_braces hhead, ih,
      countReferences_run hbrace hhead, Nat.cast_add]
    simp only [← followsHelper_iff hmark hblank]
    rw [encard_eq_and, Nat.cast_ite, Nat.cast_one, Nat.cast_zero]

/-! ## Slices -/

/-- The offset of the first two braces of a text. -/
def bracesOffset? : Text → Option Nat
  | '{' :: '{' :: _ => some 0
  | c :: t => (bracesOffset? t).map (c.utf8Size + ·)
  | [] => none

namespace Text

/-- The text from a byte on, if a character or the end is there. -/
def sliceFrom? (line : Text) (start : Nat) : Option Text :=
  (line.splitByte? start).map Prod.snd

/-- The count of references from a byte of a line on. What is looked at is sliced out of the line:
from there on for the next braces, and from behind these for what follows them. -/
def countFrom? (line helper : Text) (start : Nat) : Option Nat := do
  let rest ← line.sliceFrom? start
  match bracesOffset? rest with
  | none => return 0
  | some offset =>
    let next := start + offset + 2
    let behind ← line.sliceFrom? next
    let more ← line |>.countFrom? helper next
    return (if isReference helper behind then 1 else 0) + more
partial_fixpoint

end Text

theorem sliceFrom?_append (before t : Text) :
    (before ++ t).sliceFrom? before.byteSize = some t := by
  rw [Text.sliceFrom?, Text.splitByte?_append]
  rfl

/-- What is found is the first place at which the count stops. -/
theorem bracesOffset?_cases (helper t : Text) :
    (bracesOffset? t = none ∧ countReferences helper t = 0) ∨
      ∃ p u, t = p ++ '{' :: '{' :: u ∧ bracesOffset? t = some (Text.byteSize p) ∧
        countReferences helper t =
          (if isReference helper u then 1 else 0) + countReferences helper u := by
  fun_induction bracesOffset? t with
  | case1 u => exact .inr ⟨[], u, rfl, rfl, by rw [countReferences]⟩
  | case2 c t hne ih =>
    have hcons : countReferences helper (c :: t) = countReferences helper t := by
      rw [countReferences]
      exact hne
    rcases ih with ⟨hnone, hcount⟩ | ⟨p, u, rfl, hsome, hcount⟩
    · exact .inl ⟨by rw [hnone]; rfl, hcons.trans hcount⟩
    · refine .inr ⟨c :: p, u, rfl, ?_, hcons.trans hcount⟩
      rw [hsome, Text.byteSize_cons]
      rfl
  | case3 => exact .inl ⟨rfl, by rw [countReferences]⟩

/-- Wherever the count is in its line, the slices that it takes are defined. -/
theorem countFrom?_eq (helper : Text) (before t : Text) :
    (before ++ t).countFrom? helper before.byteSize = some (countReferences helper t) := by
  rw [Text.countFrom?, sliceFrom?_append]
  rcases bracesOffset?_cases helper t with ⟨hnone, hcount⟩ | ⟨p, u, ht, hsome, hcount⟩
  · rw [hcount, Option.bind_eq_bind, Option.bind_some, hnone]
    rfl
  · have hlength : u.length < t.length := by
      rw [ht, List.length_append, List.length_cons, List.length_cons]
      omega
    have hline : before ++ t = (before ++ p ++ ['{', '{']) ++ u := by simp [ht]
    have hnext : before.byteSize + p.byteSize + 2 = Text.byteSize (before ++ p ++ ['{', '{']) := by
      rw [Text.byteSize_append, Text.byteSize_append]
      rfl
    have ih := countFrom?_eq helper (before ++ p ++ ['{', '{']) u
    rw [Option.bind_eq_bind, Option.bind_some, hsome]
    dsimp only
    rw [hnext, hline, sliceFrom?_append, ih, hcount]
    rfl
termination_by t.length

/-- Every slice that the count of references takes is defined; and for a name of a helper that is
not empty and begins with no brace, no `~` and no blank, the count is the number of runs of two or
more braces that are references. -/
theorem countReferences_eq_runs {first : Char} (hbrace : first ≠ '{') (hmark : first ≠ '~')
    (hblank : ¬ isBlank first) (name line : Text) :
    line.countFrom? (first :: name) 0 = some (countReferences (first :: name) line) ∧
      (referringRuns (first :: name) line).encard = countReferences (first :: name) line := by
  constructor
  · exact countFrom?_eq (first :: name) [] line
  · exact encard_referringRuns hbrace hmark (Bool.eq_false_iff.2 hblank) name line

/-- Runs of five, two, two and one braces among characters of several bytes. The second is followed
by no blank, and the last has one brace too few. -/
def fourRuns : Text :=
  "é\x7b\x7b\x7b\x7b\x7b~\u3000val\u00a0x \x7b\x7bval\x7d \x7b\x7b val y\x7bval z".toList

/-- Two of the four runs are references. -/
theorem countReferences_eq_runs_of_four :
    'v' ≠ '{' ∧ 'v' ≠ '~' ∧ ¬ isBlank 'v' ∧
      fourRuns.countFrom? "val".toList 0 = some 2 ∧
      (referringRuns "val".toList fourRuns).encard = 2 := by
  have hbrace : 'v' ≠ '{' := by decide
  have hmark : 'v' ≠ '~' := by decide
  have hblank : ¬ isBlank 'v' := by decide
  have hcount : countReferences ['v', 'a', 'l'] fourRuns = 2 := by decide
  obtain ⟨hslices, hruns⟩ := countReferences_eq_runs hbrace hmark hblank ['a', 'l'] fourRuns
  rw [hcount] at hslices hruns
  exact ⟨hbrace, hmark, hblank, hslices, hruns⟩

end CalcDoc
