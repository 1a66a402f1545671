import CalcDoc.Proofs.Definedness.Cursor
import CalcDoc.Proofs.Lexemes.Tokens

/-!
# Where tokens stand

A source is a row of sites. A site is what is skipped before a token and the characters of the
token; behind the last token there is one more site, which holds the end. A token starts on the
line that counts the line feeds before it. The line that is recorded for it counts those before its
site, so the two differ where a line feed has been skipped.

- `Site`, `sites`: the sites of a text.
- `Site.scanLine`, `Site.startLine`, `Site.stopLine`: the line that is recorded for a token, the
  line on which it starts, and the line on which the text goes on behind it.
- `Sited`, `sites_of_scan`: the scan of a text records the lines of its sites, by one lemma for
  what is skipped and one for what is taken.
- `exists_site`: the site of each token.
-/

namespace CalcDoc.Script

/-- What is skipped before a token, the characters of the token, and the token itself; none at the
end of the source. -/
structure Site where
  gap : Text
  raw : Text
  token : Option Token

/-- The text of a row of sites. -/
def Site.written (ps : List Site) : Text :=
  ps.flatMap fun p => p.gap ++ p.raw

/-- The sites of a text inside `depth` open parentheses, if no token in it is faulty. Before the
text `gap` has been skipped. -/
def sites (depth : Nat) (gap : Text) : Text → Option (List Site)
  | [] => some [⟨gap, [], none⟩]
  | c :: t =>
    if c = '\n' then
      if 0 < depth then sites depth (gap ++ ['\n']) t
      else (sites depth [] t).map (⟨gap, ['\n'], some .separator⟩ :: ·)
    else if isBlank c then sites depth (gap ++ [c]) t
    else if c = '#' then
      sites depth (gap ++ '#' :: t.takeWhile (· ≠ '\n')) (t.dropWhile (· ≠ '\n'))
    else
      match _h : Token.read c t with
      | .error _ => none
      | .ok (k, rest) =>
        (sites (depthAfter depth k) [] rest).map (⟨gap, c :: Text.before t rest, some k⟩ :: ·)
termination_by t => t.length
decreasing_by
  all_goals simp only [List.length_cons]
  · omega
  · omega
  · omega
  · exact Nat.lt_succ_of_le (List.dropWhile_suffix _).length_le
  · exact Nat.lt_succ_of_le (Token.length_of_read _h)

/-! ## Lines -/

namespace Site

/-- The line on which the scan for the token behind some sites begins. -/
def scanLine (above : List Site) : Nat :=
  1 + (written above).count '\n'

/-- The line on which the token of a site starts. -/
def startLine (above : List Site) (p : Site) : Nat :=
  1 + (written above ++ p.gap).count '\n'

/-- The line on which the text goes on behind the token of a site. -/
def stopLine (above : List Site) (p : Site) : Nat :=
  scanLine (above ++ [p])

/-- The tokens of some sites with the lines on which the scans for them begin; the scan for the
first one begins on the line `start`. -/
def recorded (start : Nat) : List Site → List (Nat × Option Token)
  | [] => []
  | p :: ps => (start, p.token) :: recorded (start + (p.gap ++ p.raw).count '\n') ps

end Site

open Site (written recorded)

/-! ## The sites of a scan -/

/-- The sites of a text have these entries recorded for them, and are written as what has been
skipped and the text. -/
def Sited (depth start : Nat) (gap t : Text) (entries : List (Nat × Option Token)) : Prop :=
  ∃ ps, sites depth gap t = some ps ∧ written ps = gap ++ t ∧ recorded start ps = entries

theorem Sited.skip {depth start : Nat} {gap skipped t : Text} {entries : List (Nat × Option Token)}
    (h : Sited depth start (gap ++ skipped) t entries)
    (hsites : sites depth gap (skipped ++ t) = sites depth (gap ++ skipped) t) :
    Sited depth start gap (skipped ++ t) entries := by
  obtain ⟨ps, hps, hwritten, hrecorded⟩ := h
  exact ⟨ps, hsites.trans hps, by rw [hwritten, List.append_assoc], hrecorded⟩

theorem Sited.take {depth depth' start line : Nat} {gap raw rest : Text} {k : Token}
    {entries : List (Nat × Option Token)} (h : Sited depth' line [] rest entries)
    (hline : start + (gap ++ raw).count '\n' = line)
    (hsites : sites depth gap (raw ++ rest) =
      (sites depth' [] rest).map (⟨gap, raw, some k⟩ :: ·)) :
    Sited depth start gap (raw ++ rest) ((start, some k) :: entries) := by
  obtain ⟨ps, hps, hwritten, hrecorded⟩ := h
  refine ⟨⟨gap, raw, some k⟩ :: ps, by rw [hsites, hps]; rfl, ?_, ?_⟩
  · show gap ++ raw ++ written ps = gap ++ (raw ++ rest)
    rw [hwritten, List.append_assoc, List.nil_append]
  · rw [recorded, hline, hrecorded]

theorem sites_of_token {depth : Nat} {c : Char} {raw rest : Text} {k : Token}
    (hnewline : c ≠ '\n') (hblank : ¬ isBlank c) (hcomment : c ≠ '#')
    (hread : Token.read c (raw ++ rest) = .ok (k, rest)) (gap : Text) :
    sites depth gap (c :: raw ++ rest) =
      (sites (depthAfter depth k) [] rest).map (⟨gap, c :: raw, some k⟩ :: ·) := by
  have hbefore : Text.before (raw ++ rest) rest = raw := by
    rw [Text.before, List.length_append, Nat.add_sub_cancel, List.take_left]
  rw [List.cons_append, sites, if_neg hnewline, if_neg hblank, if_neg hcomment]
  split
  · next hx =>
    rw [hread] at hx
    cases hx
  · next hx =>
    rw [hread] at hx
    obtain ⟨rfl, rfl⟩ := Prod.mk.inj (Except.ok.inj hx)
    rw [hbefore]

/-- The scan of a text records its sites. While it skips, `line` counts the line feeds in the gap
from the line `start` on, at which the scan for the token has begun. -/
theorem sites_of_scan {depth line start : Nat} {t : Text} {r : Lexemes}
    (h : scan depth line start t = .ok r) (gap : Text) (hline : line = start + gap.count '\n') :
    Sited depth start gap t r.entries := by
  induction depth, line, start, t using scan_induction generalizing r gap with
  | nil =>
    rw [scan_nil] at h
    cases h
    exact ⟨[⟨gap, [], none⟩], by rw [sites], by simp [written], rfl⟩
  | inside depth line start t hdepth ih =>
    rw [scan_newline_inside _ _ _ hdepth] at h
    have hcount : line + 1 = start + (gap ++ ['\n']).count '\n' := by
      rw [List.count_append, hline, ← Nat.add_assoc]
      rfl
    refine (ih h _ hcount).skip ?_
    rw [List.singleton_append, sites, if_pos rfl, if_pos hdepth]
  | newline line start t ih =>
    rw [scan_newline] at h
    cases hr : scan 0 (line + 1) (line + 1) t with
    | error err =>
      rw [hr] at h
      cases h
    | ok r' =>
      rw [hr] at h
      cases h
      have hcount : start + (gap ++ ['\n']).count '\n' = line + 1 := by
        rw [List.count_append, hline, ← Nat.add_assoc]
        rfl
      refine (ih hr [] rfl).take hcount ?_
      rw [List.singleton_append, sites, if_pos rfl, if_neg (Nat.lt_irrefl 0)]
  | blank depth line start c t hnewline hblank ih =>
    rw [scan_blank _ _ _ _ hnewline hblank] at h
    have hcount : line = start + (gap ++ [c]).count '\n' := by
      rw [List.count_append, List.count_singleton, if_neg (by simpa using hnewline), hline]
      rfl
    refine (ih h _ hcount).skip ?_
    rw [List.singleton_append, sites, if_neg hnewline, if_pos hblank]
  | comment depth line start t ih =>
    rw [scan_comment] at h
    have hcomment : '\n' ∉ '#' :: t.takeWhile (· ≠ '\n') := by
      intro hmem
      rcases List.mem_cons.1 hmem with h | h
      · cases h
      · simpa using List.all_eq_true.1 List.all_takeWhile _ h
    have hcount : line = start + (gap ++ '#' :: t.takeWhile (· ≠ '\n')).count '\n' := by
      rw [List.count_append, List.count_eq_zero.2 hcomment, hline]
      rfl
    have hsites := (ih h _ hcount).skip
    rw [List.cons_append, List.takeWhile_append_dropWhile] at hsites
    apply hsites
    rw [sites, if_neg (by decide), if_neg (by decide), if_pos rfl]
  | fault depth line start c t fault hnewline hblank hcomment hread =>
    rw [scan_fault _ _ _ hnewline hblank hcomment hread] at h
    cases h
  | token depth line start c t k rest hnewline hblank hcomment hread ih =>
    rw [scan_token _ _ _ hnewline hblank hcomment hread] at h
    cases hr : scan (depthAfter depth k) line line rest with
    | error err =>
      rw [hr] at h
      cases h
    | ok r' =>
      rw [hr] at h
      cases h
      obtain ⟨⟨raw, rfl, hraw⟩, -⟩ := takenFrom_of_read hread
      have htoken : '\n' ∉ c :: raw := List.not_mem_cons_of_ne_of_not_mem hnewline.symm hraw
      have hcount : start + (gap ++ c :: raw).count '\n' = line := by
        rw [List.count_append, List.count_eq_zero.2 htoken, hline]
        rfl
      exact (ih hr [] rfl).take hcount (sites_of_token hnewline hblank hcomment hread gap)

/-! ## The site of a token -/

/-- What is recorded for some sites is recorded for each of them, on the line where the sites
above it end. -/
theorem exists_of_recorded {start : Nat} {ps : List Site} {xs ys : List (Nat × Option Token)}
    {y : Nat × Option Token} (h : recorded start ps = xs ++ y :: ys) :
    ∃ above p below, ps = above ++ p :: below ∧ recorded start above = xs ∧
      y = (start + (written above).count '\n', p.token) ∧
      recorded (start + (written (above ++ [p])).count '\n') below = ys := by
  induction xs generalizing start ps with
  | nil =>
    cases ps with
    | nil => cases h
    | cons p ps =>
      obtain ⟨rfl, rfl⟩ := List.cons.inj h
      refine ⟨[], p, ps, rfl, rfl, rfl, ?_⟩
      simp [written]
  | cons x xs ih =>
    cases ps with
    | nil => cases h
    | cons p ps =>
      obtain ⟨rfl, htail⟩ := List.cons.inj h
      obtain ⟨above, q, below, rfl, hxs, hy, hys⟩ := ih htail
      have hcount (us : List Site) :
          start + (written (p :: us)).count '\n' =
            start + (p.gap ++ p.raw).count '\n' + (written us).count '\n' := by
        rw [Nat.add_assoc, ← List.count_append]
        rfl
      refine ⟨p :: above, q, below, rfl, by rw [recorded, hxs], ?_, ?_⟩
      · rw [hcount, hy]
      · rw [List.cons_append, hcount, hys]

namespace Site

variable (above : List Site) (p : Site)

/-- The line that is recorded for a token is right if no line feed is skipped before it. -/
theorem scanLine_eq_startLine_iff : scanLine above = startLine above p ↔ '\n' ∉ p.gap := by
  rw [scanLine, startLine, List.count_append, ← List.count_eq_zero]
  omega

/-- The text goes on on the line of a token unless the token is a line feed. -/
theorem stopLine_eq_startLine_iff : stopLine above p = startLine above p ↔ '\n' ∉ p.raw := by
  have hwritten : written (above ++ [p]) = written above ++ p.gap ++ p.raw := by
    simp [written]
  rw [stopLine, scanLine, startLine, hwritten, List.count_append, ← List.count_eq_zero]
  omega

end Site

theorem map_snd_recorded (start : Nat) (ps : List Site) :
    (recorded start ps).map Prod.snd = ps.map Site.token := by
  induction ps generalizing start with
  | nil => rfl
  | cons p ps ih => rw [recorded, List.map_cons, List.map_cons, ih]

theorem tokens_of_recorded {start : Nat} {ps : List Site} {ls : List Lexeme}
    (h : recorded start ps = ls.map fun l => (l.line, some l.token)) :
    ps.filterMap Site.token = ls.map Lexeme.token := by
  have htokens : ps.map Site.token = ls.map fun l => some l.token := by
    rw [← map_snd_recorded start, h, List.map_map]
    rfl
  calc ps.filterMap Site.token
      = (ps.map Site.token).filterMap id := by rw [List.filterMap_map]; rfl
    _ = (ls.map fun l => some l.token).filterMap id := by rw [htokens]
    _ = ls.map Lexeme.token := by rw [List.filterMap_map]; exact congrFun List.filterMap_eq_map ls

theorem line_of_recorded {start : Nat} {ps : List Site} {y : Nat × Option Token}
    {ys : List (Nat × Option Token)} (h : recorded start ps = y :: ys) : y.1 = start := by
  cases ps with
  | nil => cases h
  | cons p ps =>
    obtain ⟨rfl, -⟩ := List.cons.inj h
    rfl

/-- The entries of some lexemes and the end begin with what stands next. -/
theorem entries_eq_cons (endLine : Nat) (ts : List Lexeme) :
    ∃ ys, ts.map (fun l => (l.line, some l.token)) ++ [(endLine, none)] =
      (nextLine endLine ts, nextToken? ts) :: ys := by
  cases ts with
  | nil => exact ⟨[], rfl⟩
  | cons l ts => exact ⟨_, rfl⟩

/-- Each lexeme of a source, and its end, is the token of a site. It has the line on which the scan
for it begins, and what follows it has the line on which its site stops. -/
theorem exists_site {source : Text} {ls : Lexemes} (h : Lexemes.ofText source = .ok ls)
    {taken rest : List Lexeme} (hitems : ls.items = taken ++ rest) :
    ∃ above p below, sites 0 [] source = some (above ++ p :: below) ∧
      written (above ++ p :: below) = source ∧
      above.filterMap Site.token = taken.map Lexeme.token ∧ p.token = nextToken? rest ∧
      nextLine ls.endLine rest = Site.scanLine above ∧
      (rest ≠ [] → nextLine ls.endLine rest.tail = Site.stopLine above p) := by
  obtain ⟨ps, hps, hwritten, hrecorded⟩ := sites_of_scan h [] rfl
  rw [Lexemes.entries, hitems, List.map_append, List.append_assoc] at hrecorded
  obtain ⟨ys, hys⟩ := entries_eq_cons ls.endLine rest
  rw [hys] at hrecorded
  obtain ⟨above, p, below, rfl, habove, hp, hbelow⟩ := exists_of_recorded hrecorded
  obtain ⟨hline, htoken⟩ := Prod.mk.inj hp
  refine ⟨above, p, below, hps, hwritten, tokens_of_recorded habove, htoken.symm, hline, ?_⟩
  intro hrest
  cases rest with
  | nil => exact absurd rfl hrest
  | cons l rest =>
    obtain ⟨zs, hzs⟩ := entries_eq_cons ls.endLine rest
    obtain ⟨-, rfl⟩ := List.cons.inj hys
    exact line_of_recorded (hbelow.trans hzs)

end CalcDoc.Script
