import CalcDoc.Proofs.Command.Deliveries
import CalcDoc.Proofs.Documents.Idle
import Mathlib

/-!
# The warning of a check

A check warns of the last block of a document if no reference follows it. It looks at the
segmentation alone, and a session of the document shows that it is right: such a block still waits
when all references have been served.

- `Job.notes`: the messages of a job, one by one; `Job.messages_run` says that they are what is
  written to the stream.
- `Job.Omits`: a job that never writes some message.
- `mem_notes_checkTemplate`: the block that a check warns of.
- `Invocation.check_warns`: the warning, and the blocks that wait at the end of a session.
-/

namespace CalcDoc

/-! ## Messages -/

namespace Job

variable {α β : Type} {j : Job α} {k : α → Job β} {m : String} {w w' : World}

/-- The messages of a job in a world, one by one. -/
def notes : Job α → World → List String
  | .done _, _ => []
  | .fail _, _ => []
  | .look p next, w => notes (next (w.disk.has p)) w
  | .read p next, w => notes (next (w.disk.read p)) w
  | .write p t next, w =>
    let (r, w) := change w (w.disk.write p t)
    notes (next r) w
  | .makeFolders p next, w =>
    let (r, w) := change w (w.disk.makeFolders p)
    notes (next r) w
  | .print t next, w => notes next { w with documents := w.documents ++ t }
  | .note message next, w =>
    message :: notes next { w with messages := w.messages ++ message.toList }

theorem change_messages (w : World) (r : Except Refusal Disk) :
    (change w r).2.messages = w.messages := by
  cases r <;> rfl

/-- The messages, one after the other, are what a job adds to the stream. -/
theorem messages_run (j : Job α) (w : World) :
    (j.run w).2.messages = w.messages ++ (j.notes w).flatMap String.toList := by
  induction j generalizing w with
  | done a => exact (List.append_nil _).symm
  | fail e => exact (List.append_nil _).symm
  | look p next ih => exact ih _ w
  | read p next ih => exact ih _ w
  | write p t next ih =>
    have hkept := change_messages w (w.disk.write p t)
    rw [notes, run]
    dsimp only
    rw [ih, hkept]
  | makeFolders p next ih =>
    have hkept := change_messages w (w.disk.makeFolders p)
    rw [notes, run]
    dsimp only
    rw [ih, hkept]
  | print t next ih => exact ih _
  | note message next ih =>
    refine (ih _).trans ?_
    rw [List.append_assoc]
    rfl

/-- The messages of a job and of what follows it. -/
theorem notes_andThen (j : Job α) (k : α → Job β) (w : World) :
    (j.andThen k).notes w = j.notes w ++
      match j.run w with
      | (.ok a, w) => (k a).notes w
      | (.error _, _) => [] := by
  induction j generalizing w with
  | done a => rfl
  | fail e => rfl
  | look p next ih => simp only [andThen, notes, run, ih]
  | read p next ih => simp only [andThen, notes, run, ih]
  | write p t next ih => simp only [andThen, notes, run, ih]
  | makeFolders p next ih => simp only [andThen, notes, run, ih]
  | print t next ih => simp only [andThen, notes, run, ih]
  | note message next ih => simp only [andThen, notes, run, ih, List.cons_append]

/-- Whether a job never writes a message. -/
def Omits (m : String) (j : Job α) : Prop :=
  ∀ w, m ∉ j.notes w

theorem Omits.done (a : α) : Omits m (.done a) :=
  fun _ => List.not_mem_nil

theorem Omits.fail (e : Command.Error) : Omits m (.fail e : Job α) :=
  fun _ => List.not_mem_nil

theorem Omits.note {m' : String} (h : Omits m j) (hne : m ≠ m') : Omits m (.note m' j) :=
  fun _ => List.not_mem_cons_of_ne_of_not_mem hne (h _)

theorem Omits.andThen (h : Omits m j) (hk : ∀ a, Omits m (k a)) : Omits m (j.andThen k) := by
  intro w
  rw [notes_andThen, List.mem_append]
  refine not_or.2 ⟨h w, ?_⟩
  split
  · exact hk _ _
  · exact List.not_mem_nil

/-- A message that a job does not write comes from what follows. -/
theorem Omits.mem_andThen (h : Omits m j) {a : α} (hrun : j.run w = (.ok a, w')) :
    m ∈ (j.andThen k).notes w ↔ m ∈ (k a).notes w' := by
  rw [notes_andThen, hrun, List.mem_append, or_iff_right (h w)]

/-- A message that is not written any more comes from the job before. -/
theorem mem_andThen_of_omits (hk : ∀ a, Omits m (k a)) :
    m ∈ (j.andThen k).notes w ↔ m ∈ j.notes w := by
  rw [notes_andThen, List.mem_append, or_iff_left]
  split
  · exact hk _ _
  · exact List.not_mem_nil

end Job

/-- The messages of an invocation on a disk, one by one, without the report of an error. -/
def Invocation.notes (i : Invocation) (d : Disk) : List String :=
  i.job.notes ⟨d, [], []⟩

/-- What an invocation writes to the stream of messages. -/
theorem Invocation.messages_run (i : Invocation) (d : Disk) :
    (i.run d).world.messages = (i.notes d).flatMap String.toList ++
      match (i.job.run ⟨d, [], []⟩).1 with
      | .ok () => []
      | .error e => e.report.toList := by
  have hrun := Job.messages_run i.job ⟨d, [], []⟩
  rw [List.nil_append] at hrun
  rw [Invocation.run, Invocation.notes, ← hrun]
  rcases i.job.run ⟨d, [], []⟩ with ⟨r, w⟩
  cases r with
  | ok _ => exact (List.append_nil _).symm
  | error e => rfl

/-! ## The warning -/

namespace Command

open Job

/-- The warning of the block with a number. -/
def idleWarning (n : Nat) : String :=
  "[WARN] " ++ ("block " ++ toString n ++ " has no reference after it and will never run") ++ "\n"

theorem idleWarning_inj {m n : Nat} : idleWarning m = idleWarning n ↔ m = n := by
  unfold idleWarning
  rw [String.append_left_inj, String.append_right_inj, String.append_left_inj,
    String.append_right_inj]
  exact Nat.repr_inj

variable {n : Nat} {settingsPath p : Path} {settings : Settings} {text : Text} {s : Segmentation}
  {w : World}

/-- What begins in another way is no warning. -/
theorem omits_note {first rest : String} (h : ¬ "[WARN] ".toList <+: first.toList)
    (h' : ¬ first.toList <+: "[WARN] ".toList) :
    Omits (idleWarning n) (.note (first ++ rest) (.done ())) := by
  refine (Omits.done ()).note fun heq => ?_
  have hwarning : "[WARN] ".toList <+: (first ++ rest).toList := by
    rw [← heq, idleWarning, String.append_assoc, String.toList_append]
    exact List.prefix_append _ _
  have hfirst : first.toList <+: (first ++ rest).toList := by
    rw [String.toList_append]
    exact List.prefix_append _ _
  exact (List.prefix_or_prefix_of_prefix hwarning hfirst).elim h h'

theorem omits_heading (t : String) : Omits (idleWarning n) (heading t) := by
  rw [heading, String.append_assoc, String.append_assoc, String.append_assoc]
  exact omits_note (by decide) (by decide)

theorem omits_fact (name value : String) : Omits (idleWarning n) (fact name value) := by
  rw [fact, String.append_assoc, String.append_assoc, String.append_assoc]
  exact omits_note (by decide) (by decide)

theorem omits_success (t : String) : Omits (idleWarning n) (success t) := by
  rw [success, String.append_assoc]
  exact omits_note (by decide) (by decide)

theorem omits_describeBlocks (bs : List Block) : Omits (idleWarning n) (describeBlocks bs) := by
  induction bs with
  | nil => exact Omits.done ()
  | cons b bs ih => exact (omits_fact _ _).andThen fun _ => ih

/-- All that is said of blocks is said without failing. -/
theorem run_describeBlocks (bs : List Block) (w : World) :
    ∃ w', (describeBlocks bs).run w = (.ok (), w') := by
  induction bs generalizing w with
  | nil => exact ⟨w, rfl⟩
  | cons b bs ih => exact ih _

theorem mem_notes_warnIdle : idleWarning n ∈ (warnIdle s).notes w ↔
    ∃ b, idleBlock? s = some b ∧ b.index = n := by
  rw [warnIdle]
  cases hidle : idleBlock? s with
  | none => simp [notes]
  | some b =>
    show idleWarning n ∈ [idleWarning b.index] ↔ _
    rw [List.mem_singleton, idleWarning_inj]
    simp [eq_comm]

theorem omits_loadSettings (p : Path) : Omits (idleWarning n) (loadSettings p) := by
  intro w
  rw [loadSettings, notes]
  split
  · rw [notes]
    cases settingsOf p (w.disk.read p) <;> exact List.not_mem_nil
  · exact List.not_mem_nil

theorem omits_loadTemplate (p : Path) : Omits (idleWarning n) (loadTemplate p) := by
  intro w
  rw [loadTemplate, notes]
  cases w.disk.read p <;> exact List.not_mem_nil

/-- A check warns of the idle block and of no other. -/
theorem mem_notes_checkTemplate
    (hsettings : ((loadSettings settingsPath).run w).1 = .ok settings)
    (hread : w.disk.read p = .ok text) (hsegment : segment settings.markers text = .ok s) :
    idleWarning n ∈ (checkTemplate settingsPath p).notes w ↔
      ∃ b, idleBlock? s = some b ∧ b.index = n := by
  have hload : (loadSettings settingsPath).run w = (.ok settings, w) :=
    Prod.ext hsettings (run_loadSettings settingsPath w)
  have htemplate : (loadTemplate p).run w = (.ok text, w) := by
    rw [loadTemplate, Job.run, hread]
    rfl
  obtain ⟨w₁, hheading⟩ : ∃ w₁, (heading ("stepwise check: " ++ p)).run w = (.ok (), w₁) :=
    ⟨_, rfl⟩
  obtain ⟨w₂, hdescribe⟩ := run_describeBlocks s.blocks w₁
  rw [checkTemplate, (omits_loadSettings _).mem_andThen hload,
    (omits_loadTemplate _).mem_andThen htemplate, (omits_heading _).mem_andThen hheading, hsegment]
  dsimp only
  rw [(omits_describeBlocks _).mem_andThen hdescribe, mem_andThen_of_omits, mem_notes_warnIdle]
  intro _
  split
  · exact Omits.fail _
  · exact omits_success _

end Command

open Command

/-- When a session has been asked for as many values as the text has references and no block has
failed, a check of the text warns if and only if some block still waits. The waiting blocks are
those with all references above them, and the warning names the last of them. -/
theorem Invocation.check_warns {i : Invocation} {d : Disk} {p : Path} {settings : Settings}
    {text : Text} {s : Segmentation} (hcommand : i.command = .check p)
    (hsettings : ((loadSettings i.settings).run ⟨d, [], []⟩).1 = .ok settings)
    (hread : d.read p = .ok text) (hsegment : segment settings.markers text = .ok s)
    {xs : List String} (hxs : xs.length = s.references)
    (hanswered : ∀ answer ∈ ((Session.ofSegmentation s settings).requests xs).1, answer.isOk) :
    let t := ((Session.ofSegmentation s settings).requests xs).2
    ((∃ n, idleWarning n ∈ i.notes d) ↔ 0 < t.report.pending) ∧
    t.pending = s.blocks.filter (·.threshold == s.references) ∧
    ∀ n, idleWarning n ∈ i.notes d ↔ ∃ b, t.pending.getLast? = some b ∧ b.index = n := by
  intro t
  have hpending : t.pending = s.blocks.filter (·.threshold == s.references) :=
    Session.pending_of_answered hsegment hxs hanswered
  have hlast : t.pending.getLast? = idleBlock? s := by
    obtain ⟨parts, -, -, hparts⟩ := exists_parts hsegment
    have hsorted : s.blocks.Pairwise (·.threshold ≤ ·.threshold) := by
      rw [hparts]
      exact pairwise_blocksOf
    rw [hpending, getLast?_filter_eq hsorted (threshold_le_references hsegment)]
    rfl
  have hwarns : ∀ n, idleWarning n ∈ i.notes d ↔
      ∃ b, t.pending.getLast? = some b ∧ b.index = n := by
    intro n
    rw [hlast, Invocation.notes, Invocation.job, hcommand]
    exact mem_notes_checkTemplate hsettings hread hsegment
  refine ⟨?_, hpending, hwarns⟩
  show _ ↔ 0 < t.pending.length
  rw [List.length_pos_iff, ← List.getLast?_isSome, Option.isSome_iff_exists]
  simp only [hwarns]
  constructor
  · rintro ⟨_, b, hb, -⟩
    exact ⟨b, hb⟩
  · rintro ⟨b, hb⟩
    exact ⟨b.index, b, hb, rfl⟩

/-- A block above the only reference, and one below it. -/
def lateBlock : Text :=
  "```calc\nx = 1\n```\n\x7b\x7b_ \"x\"\x7d\x7d\n```calc\nx = 2\n```".toList

/-- The check of a template. -/
def checkOf (p : Path) : Invocation where
  command := .check p
  settings := "stepwise.config.json"
  verbosity := 0

theorem Invocation.check_warns_of_lateBlock :
    let d := Disk.ofFiles [("late.md", lateBlock)]
    let s : Segmentation :=
      ⟨[⟨0, 0, 1, ["x = 1".toList]⟩, ⟨1, 1, 5, ["x = 2".toList]⟩], 1,
        ["\x7b\x7b_ \"x\"\x7d\x7d".toList]⟩
    let t := ((Session.ofSegmentation s {}).requests ["x"]).2
    (checkOf "late.md").command = .check "late.md" ∧
      ((loadSettings (checkOf "late.md").settings).run ⟨d, [], []⟩).1 = .ok {} ∧
      d.read "late.md" = .ok lateBlock ∧ segment (Settings.markers {}) lateBlock = .ok s ∧
      ["x"].length = s.references ∧
      (∀ answer ∈ ((Session.ofSegmentation s {}).requests ["x"]).1, answer.isOk) ∧
      idleWarning 1 ∈ (checkOf "late.md").notes d ∧ 0 < t.report.pending ∧
      t.pending = [⟨1, 1, 5, ["x = 2".toList]⟩] := by
  intro d s t
  have hsettings : ((loadSettings (checkOf "late.md").settings).run ⟨d, [], []⟩).1 = .ok {} := by
    have hnone : d.has "stepwise.config.json" = false := by decide +kernel
    show ((loadSettings "stepwise.config.json").run ⟨d, [], []⟩).1 = _
    rw [loadSettings, Job.run, hnone]
    rfl
  have hread : d.read "late.md" = .ok lateBlock := rfl
  have hsegment : segment (Settings.markers {}) lateBlock = .ok s := rfl
  have hanswered : ∀ answer ∈ ((Session.ofSegmentation s {}).requests ["x"]).1, answer.isOk := by
    have hall : ((Session.ofSegmentation s {}).requests ["x"]).1.all Except.isOk := by
      decide +kernel
    exact List.all_eq_true.1 hall
  obtain ⟨hwarns, hpending, hlast⟩ :=
    Invocation.check_warns rfl hsettings hread hsegment rfl hanswered
  have hmember : idleWarning 1 ∈ (checkOf "late.md").notes d := by
    rw [hlast, hpending]
    exact ⟨_, rfl, rfl⟩
  exact ⟨rfl, hsettings, hread, hsegment, rfl, hanswered, hmember, hwarns.1 ⟨1, hmember⟩, hpending⟩

end CalcDoc
