import CalcDoc.Command.Actions
import CalcDoc.Proofs.Files.Disks

/-!
# Documents in a folder

Several templates that are rendered into one folder are rendered and written one after the other,
so a document can be written over by that of another template, and so can a template that is still
to be read.

- `Job.KeepsDisk`: a job that changes no file.
- `renderOne_delivers`: the step, one template read and its document written.
- `renderEach_keeps`: the run, over which files of other names are left alone.
- `Invocation.run_delivers`: the document of a template is there in the end if no other template
  has its name.
-/

namespace CalcDoc

/-! ## Jobs -/

namespace Job

variable {α β : Type} {j : Job α} {k : α → Job β}

theorem of_run_andThen {b : β} {w w' : World} (h : (j.andThen k).run w = (.ok b, w')) :
    ∃ a v, j.run w = (.ok a, v) ∧ (k a).run v = (.ok b, w') := by
  rw [run_andThen] at h
  split at h
  · next a v hj => exact ⟨a, v, hj, h⟩
  · cases h

/-- Whether a job leaves every disk as it is. -/
def KeepsDisk (j : Job α) : Prop :=
  ∀ w, (j.run w).2.disk = w.disk

theorem KeepsDisk.done (a : α) : KeepsDisk (.done a) :=
  fun _ => rfl

theorem KeepsDisk.note {s : String} (h : j.KeepsDisk) : KeepsDisk (.note s j) :=
  fun _ => h _

theorem KeepsDisk.andThen (h : j.KeepsDisk) (hk : ∀ a, (k a).KeepsDisk) :
    (j.andThen k).KeepsDisk := by
  intro w
  rw [run_andThen]
  split
  · next a v hj =>
    rw [hk a v, ← h w, hj]
  · next e v hj =>
    rw [← h w, hj]

theorem KeepsDisk.ite {c : Prop} [Decidable c] {j' : Job α} (h : j.KeepsDisk)
    (h' : j'.KeepsDisk) : KeepsDisk (if c then j else j') := by
  split
  · exact h
  · exact h'

theorem KeepsDisk.of_run (h : j.KeepsDisk) {w w' : World} {r : Except Command.Error α}
    (hrun : j.run w = (r, w')) : w'.disk = w.disk := by
  rw [← h w, hrun]

end Job

namespace Command

open Job

variable {verbosity : Nat} {settings : Settings} {data : Json} {options : RenderOptions}
  {told : Bool} {p q : Path} {ps qs : List Path} {w w' : World}

theorem keepsDisk_record (told : Bool) (line : String) : (record told line).KeepsDisk :=
  (KeepsDisk.done ()).note.ite (KeepsDisk.done ())

theorem keepsDisk_success (s : String) : (success s).KeepsDisk :=
  (KeepsDisk.done ()).note

theorem keepsDisk_recordSession (verbosity : Nat) (r : Session.Report) :
    (recordSession verbosity r).KeepsDisk :=
  (keepsDisk_record _ _).andThen fun _ => keepsDisk_record _ _

theorem keepsDisk_recordTemplate (verbosity : Nat) (p : Path) (r : Session.Report) :
    (recordTemplate verbosity p r).KeepsDisk :=
  (keepsDisk_record _ _).andThen fun _ => (KeepsDisk.done ()).ite (KeepsDisk.done ()).note

/-! ## One template -/

theorem loadTemplate_ok {text : Text} (h : (loadTemplate p).run w = (.ok text, w')) :
    w.disk.read p = .ok text ∧ w' = w := by
  rw [loadTemplate, Job.run] at h
  cases hread : w.disk.read p with
  | error r =>
    rw [hread] at h
    cases h
  | ok t =>
    rw [hread] at h
    cases h
    exact ⟨rfl, rfl⟩

theorem deliver_ok {output : Text} (hq : destination options p = some q)
    (h : (deliver told options p output).run w = (.ok (), w')) :
    w.disk.write q output = .ok w'.disk := by
  rw [deliver, hq] at h
  simp only [Job.run] at h
  cases hwrite : w.disk.write q output with
  | error r =>
    rw [hwrite] at h
    cases h
  | ok d =>
    have hkeeps : (if told then success (p ++ " -> " ++ q) else .done ()).KeepsDisk :=
      (keepsDisk_success _).ite (KeepsDisk.done ())
    rw [hwrite] at h
    exact congrArg Except.ok (hkeeps.of_run h).symm

theorem renderOne_ok (h : (renderOne verbosity settings data options told p).run w = (.ok (), w')) :
    ∃ text rendered v, w.disk.read p = .ok text ∧
      Document.render settings text data = .ok rendered ∧ v.disk = w.disk ∧
      (deliver told options p rendered.output).run v = (.ok (), w') := by
  obtain ⟨text, v, hload, hrest⟩ := of_run_andThen h
  obtain ⟨hread, rfl⟩ := loadTemplate_ok hload
  cases hrender : Document.render settings text data with
  | error e =>
    rw [hrender] at hrest
    cases hrest
  | ok rendered =>
    rw [hrender] at hrest
    obtain ⟨_, v₁, hsession, hrest⟩ := of_run_andThen hrest
    obtain ⟨_, v₂, htemplate, hdeliver⟩ := of_run_andThen hrest
    refine ⟨text, rendered, v₂, hread, hrender, ?_, hdeliver⟩
    rw [(keepsDisk_recordTemplate _ _ _).of_run htemplate,
      (keepsDisk_recordSession _ _).of_run hsession]

section Folder

variable {folder : Path} (houtput : options.output = none) (hfolder : options.outDir = some folder)

include houtput hfolder

/-- One step: a template is read and its document is written under its name. -/
theorem renderOne_delivers (hnamed : w.disk.Named)
    (h : (renderOne verbosity settings data options told p).run w = (.ok (), w')) :
    ∃ name text rendered, p.fileName? = some name ∧ w.disk.read p = .ok text ∧
      Document.render settings text data = .ok rendered ∧
      w.disk.write (folder.join name) rendered.output = .ok w'.disk := by
  obtain ⟨text, rendered, v, hread, hrender, hdisk, hdeliver⟩ := renderOne_ok h
  obtain ⟨name, hname⟩ := Disk.exists_fileName? hnamed hread
  have hdestination : destination options p = some (folder.join name) := by
    rw [destination, houtput, hfolder, hname]
    rfl
  exact ⟨name, text, rendered, hname, hread, hrender, hdisk ▸ deliver_ok hdestination hdeliver⟩

/-! ## Several templates -/

/-- The run of some templates leaves what files of other names hold. -/
theorem renderEach_keeps (hnamed : w.disk.Named)
    (h : (renderEach verbosity settings data options told ps).run w = (.ok (), w')) :
    w'.disk.Named ∧ ∀ {q x u}, q.fileName? = some x → (∀ p ∈ ps, p.fileName? ≠ some x) →
      (w'.disk.read q = .ok u ↔ w.disk.read q = .ok u) := by
  induction ps generalizing w with
  | nil =>
    cases h
    exact ⟨hnamed, fun _ _ => Iff.rfl⟩
  | cons p ps ih =>
    obtain ⟨_, v, hone, hrest⟩ := of_run_andThen h
    obtain ⟨name, text, rendered, hname, -, -, hwrite⟩ :=
      renderOne_delivers houtput hfolder hnamed hone
    have hjoin := Path.fileName?_join folder hname
    obtain ⟨hnamed', hkeeps⟩ := ih (hnamed.write hwrite hjoin) hrest
    refine ⟨hnamed', fun {q x u} hq hother => ?_⟩
    have hne : name ≠ x := by
      rintro rfl
      exact hother p List.mem_cons_self hname
    rw [hkeeps hq fun p hp => hother p (List.mem_cons_of_mem _ hp),
      Disk.read_write_of_ne hwrite hjoin hq hne]

omit houtput hfolder in
theorem of_renderEach_append
    (h : (renderEach verbosity settings data options told (ps ++ qs)).run w = (.ok (), w')) :
    ∃ v, (renderEach verbosity settings data options told ps).run w = (.ok (), v) ∧
      (renderEach verbosity settings data options told qs).run v = (.ok (), w') := by
  induction ps generalizing w with
  | nil => exact ⟨w, rfl, h⟩
  | cons p ps ih =>
    obtain ⟨_, v, hone, hrest⟩ := of_run_andThen h
    obtain ⟨v', hps, hqs⟩ := ih hrest
    exact ⟨v', by rw [renderEach, run_andThen, hone]; exact hps, hqs⟩

/-- The document of a template is there in the end if no other template has its name. -/
theorem renderEach_delivers {t : Path} (hnamed : w.disk.Named)
    (hother : ∀ p ∈ ps ++ qs, p.fileName? ≠ t.fileName?)
    (h : (renderEach verbosity settings data options told (ps ++ t :: qs)).run w = (.ok (), w')) :
    ∃ name text rendered, t.fileName? = some name ∧ w.disk.read t = .ok text ∧
      Document.render settings text data = .ok rendered ∧
      w'.disk.read (folder.join name) = .ok rendered.output := by
  obtain ⟨v, hbefore, h⟩ := of_renderEach_append h
  obtain ⟨_, v', hone, hafter⟩ := of_run_andThen h
  obtain ⟨hnamed', hkept⟩ := renderEach_keeps houtput hfolder hnamed hbefore
  obtain ⟨name, text, rendered, hname, hread, hrender, hwrite⟩ :=
    renderOne_delivers houtput hfolder hnamed' hone
  have hjoin := Path.fileName?_join folder hname
  obtain ⟨hps, hqs⟩ := List.forall_mem_append.1 (hname ▸ hother)
  obtain ⟨-, hkept'⟩ := renderEach_keeps houtput hfolder (hnamed'.write hwrite hjoin) hafter
  exact ⟨name, text, rendered, hname, (hkept hname hps).1 hread, hrender,
    (hkept' hjoin hqs).2 (Disk.read_write hwrite)⟩

end Folder

/-! ## Commands -/

/-- The settings are read and nothing is written. -/
theorem run_loadSettings (p : Path) (w : World) : ((loadSettings p).run w).2 = w := by
  have hofExcept : ∀ r : Except Error Settings, ((Job.ofExcept r).run w).2 = w := by
    intro r
    cases r <;> rfl
  rw [loadSettings, Job.run]
  split
  · exact hofExcept _
  · rfl

/-- The data is read and nothing is written. -/
theorem run_loadData (p : Option Path) (w : World) : ((loadData p).run w).2 = w := by
  cases p with
  | none => rfl
  | some p =>
    rw [loadData, Job.run]
    split
    · rfl
    · split <;> rfl

theorem makeOutDir_ok {folder : Path} (hfolder : options.outDir = some folder)
    (h : (makeOutDir options).run w = (.ok (), w')) :
    w.disk.makeFolders folder = .ok w'.disk := by
  rw [makeOutDir, hfolder] at h
  simp only [Job.run] at h
  cases hmake : w.disk.makeFolders folder with
  | error r =>
    rw [hmake] at h
    cases h
  | ok d =>
    rw [hmake] at h
    cases h
    rfl

/-- What is done when several templates are rendered. -/
theorem renderAll_ok {settingsPath : Path} (houtput : options.output = none)
    (h : (renderAll verbosity settingsPath ps options).run w = (.ok (), w')) :
    ∃ settings data told w₁ w₂, ((loadSettings settingsPath).run w).1 = .ok settings ∧
      ((loadData options.data).run w).1 = .ok data ∧
      (makeOutDir options).run w = (.ok (), w₁) ∧
      (renderEach verbosity (overrides options settings) data options told ps).run w₁ =
        (.ok (), w₂) ∧ w'.disk = w₂.disk := by
  rw [renderAll, houtput] at h
  obtain ⟨settings, v, hsettings, h₁⟩ := of_run_andThen h
  obtain ⟨data, v', hdata, h₂⟩ := of_run_andThen h₁
  obtain ⟨_, w₁, hmake, h₃⟩ := of_run_andThen h₂
  obtain ⟨_, w₂, heach, hlast⟩ := of_run_andThen h₃
  obtain rfl : v = w := by rw [← run_loadSettings settingsPath w, hsettings]
  obtain rfl : v' = v := by rw [← run_loadData options.data v, hdata]
  have hdisk := ((keepsDisk_success _).ite (KeepsDisk.done ())).of_run hlast
  exact ⟨settings, data, _, w₁, w₂, by rw [hsettings], by rw [hdata], hmake, heach, hdisk⟩

/-- The document that a text gives with the settings and the data on a disk. -/
def IsDocument (settingsPath : Path) (options : RenderOptions) (d : Disk) (text output : Text) :
    Prop :=
  ∃ settings data rendered, ((loadSettings settingsPath).run ⟨d, [], []⟩).1 = .ok settings ∧
    ((loadData options.data).run ⟨d, [], []⟩).1 = .ok data ∧
    Document.render (overrides options settings) text data = .ok rendered ∧
    output = rendered.output

end Command

open Command Job

/-- When several templates have been rendered into a folder, the document of a template is there if
no other one has its name: the document of the text that the template had before, or has once the
folder is there. -/
theorem Invocation.run_delivers {i : Invocation} {d : Disk} {options : RenderOptions}
    {before after : List Path} {folder t : Path} (hnamed : d.Named)
    (hcommand : i.command = .render (before ++ t :: after) options)
    (houtput : options.output = none) (hfolder : options.outDir = some folder)
    (hother : ∀ p ∈ before ++ after, p.fileName? ≠ t.fileName?)
    (hexit : (i.run d).exitCode = 0) :
    ∃ d' name text output, d.makeFolders folder = .ok d' ∧ t.fileName? = some name ∧
      d'.read t = .ok text ∧ (∀ u, d.read t = .ok u → u = text) ∧
      IsDocument i.settings options d text output ∧
      (i.run d).world.disk.read (folder.join name) = .ok output := by
  rw [Invocation.run, Invocation.job, hcommand] at hexit ⊢
  split at hexit
  · next w hrun =>
    obtain ⟨settings, data, told, w₁, w₂, hsettings, hdata, hmake, heach, hdisk⟩ :=
      renderAll_ok houtput hrun
    have hmade := makeOutDir_ok hfolder hmake
    have hgrows := Disk.makeFolders_grows hmade
    obtain ⟨name, text, rendered, hname, hread, hrender, hdelivered⟩ :=
      renderEach_delivers houtput hfolder (hgrows.named hnamed) hother heach
    have hbefore : ∀ u, d.read t = .ok u → u = text := fun u hu =>
      Except.ok.inj ((hgrows.read hu).symm.trans hread)
    refine ⟨w₁.disk, name, text, rendered.output, hmade, hname, hread, hbefore,
      ⟨settings, data, rendered, hsettings, hdata, hrender, rfl⟩, ?_⟩
    show w.disk.read (folder.join name) = .ok rendered.output
    rw [hdisk, hdelivered]
  · cases hexit

/-- The options that have documents written into a folder. -/
def intoFolder (folder : Path) : RenderOptions where
  data := none
  output := none
  outDir := some folder
  strip := false
  strict := false

/-- Some templates rendered into a folder. -/
def renderInto (folder : Path) (templates : List Path) : Invocation where
  command := .render templates (intoFolder folder)
  settings := "stepwise.config.json"
  verbosity := 0

/-- Two templates with names of their own. -/
def otherNames : Disk :=
  .ofFiles [("a/x.md", "one".toList), ("b/y.md", "two".toList)]

theorem Invocation.run_delivers_of_otherNames :
    otherNames.Named ∧ (intoFolder "out").output = none ∧
      (intoFolder "out").outDir = some "out" ∧
      (∀ p ∈ ["a/x.md"] ++ [], Path.fileName? p ≠ Path.fileName? "b/y.md") ∧
      ((renderInto "out" ["a/x.md", "b/y.md"]).run otherNames).exitCode = 0 ∧
      ∃ d' name text output, otherNames.makeFolders "out" = .ok d' ∧
        Path.fileName? "b/y.md" = some name ∧ d'.read "b/y.md" = .ok text ∧
        (∀ u, otherNames.read "b/y.md" = .ok u → u = text) ∧
        IsDocument "stepwise.config.json" (intoFolder "out") otherNames text output ∧
        ((renderInto "out" ["a/x.md", "b/y.md"]).run otherNames).world.disk.read
          (Path.join "out" name) = .ok output := by
  have hnamed : otherNames.Named := Disk.named_ofFiles (by decide +kernel)
  have hcommand : (renderInto "out" ["a/x.md", "b/y.md"]).command =
      .render (["a/x.md"] ++ "b/y.md" :: []) (intoFolder "out") := rfl
  have hother : ∀ p ∈ ["a/x.md"] ++ [], Path.fileName? p ≠ Path.fileName? "b/y.md" := by
    decide +kernel
  have hexit : ((renderInto "out" ["a/x.md", "b/y.md"]).run otherNames).exitCode = 0 := by
    decide +kernel
  exact ⟨hnamed, rfl, rfl, hother, hexit,
    Invocation.run_delivers hnamed hcommand rfl rfl hother hexit⟩

/-- Escaped braces: what a template shows with them, another one would ask with. -/
def escapedTag : Text :=
  "\\\x7b\x7b_ \"a\"\x7d\x7d".toList

/-- Two templates of one name, of which one lies in the folder that documents go to. -/
def sameNames : Disk :=
  .ofFiles [("a/x.md", escapedTag), ("x.md", escapedTag)]

/-- The second template is written over before it is read, and the first document after that. -/
theorem Invocation.run_loses_documents :
    let outcome := (renderInto "." ["a/x.md", "x.md"]).run sameNames
    outcome.exitCode = 0 ∧
      ∃ output, IsDocument "stepwise.config.json" (intoFolder ".") sameNames escapedTag output ∧
        ∀ t ∈ ["a/x.md", "x.md"], sameNames.read t = .ok escapedTag ∧
          Path.fileName? t = some "x.md" ∧
          outcome.world.disk.read (Path.join "." "x.md") ≠ .ok output := by
  intro outcome
  let rendering := Document.render (overrides (intoFolder ".") {}) escapedTag (.object [])
  have hexit : outcome.exitCode = 0 := by decide +kernel
  have hleft : (outcome.world.disk.read (Path.join "." "x.md")).toOption = some "???".toList := by
    decide +kernel
  have hshown : rendering.toOption.map Rendered.output =
      some "\x7b\x7b_ \"a\"\x7d\x7d".toList := by
    decide +kernel
  have hsettings : sameNames.has "stepwise.config.json" = false := by decide +kernel
  have htexts : ∀ t ∈ ["a/x.md", "x.md"], sameNames.read t = .ok escapedTag ∧
      Path.fileName? t = some "x.md" :=
    List.forall_mem_cons.2 ⟨⟨rfl, by decide⟩, List.forall_mem_singleton.2 ⟨rfl, by decide⟩⟩
  cases hrender : rendering with
  | error e =>
    rw [hrender] at hshown
    cases hshown
  | ok rendered =>
    have houtput : rendered.output = "\x7b\x7b_ \"a\"\x7d\x7d".toList := by
      rw [hrender] at hshown
      exact Option.some.inj hshown
    refine ⟨hexit, rendered.output, ⟨{}, .object [], rendered, ?_, rfl, hrender, rfl⟩, ?_⟩
    · rw [loadSettings, Job.run, hsettings]
      rfl
    · intro t ht
      obtain ⟨hread, hname⟩ := htexts t ht
      refine ⟨hread, hname, fun hlost => ?_⟩
      rw [hlost, houtput] at hleft
      exact absurd hleft (by decide)

end CalcDoc
