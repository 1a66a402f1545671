import CalcDoc.Proofs.Command.Deliveries
import CalcDoc.Proofs.Files.Changes

/-!
# The first template that fails

Templates that go into one folder are rendered in their order up to the first that fails. Each
document is written as soon as it is rendered, so those before the failing template are there, and
nothing else has changed.

- `Job.Succeeds`: a job that never fails.
- `Command.rendering`: what a template gives on a disk.
- `renderOne_runs`, `renderOne_error`: the step, with a document and without one.
- `renderEach_runs`: the run of templates that all give documents, of which each changes its own
  destination only.
- `Invocation.run_stops`: the disk after a template has failed, or the settings or the data.
-/

namespace CalcDoc

/-! ## Jobs that never fail -/

namespace Job

variable {α β : Type} {j : Job α} {k : α → Job β}

/-- Whether a job ends well in every world. -/
def Succeeds (j : Job α) : Prop :=
  ∀ w, ∃ a, (j.run w).1 = .ok a

theorem Succeeds.done (a : α) : Succeeds (.done a) :=
  fun _ => ⟨a, rfl⟩

theorem Succeeds.note {s : String} (h : j.Succeeds) : Succeeds (.note s j) :=
  fun _ => h _

theorem Succeeds.andThen (h : j.Succeeds) (hk : ∀ a, (k a).Succeeds) :
    (j.andThen k).Succeeds := by
  intro w
  obtain ⟨a, ha⟩ := h w
  rw [run_andThen]
  split
  · next a' v _ => exact hk a' v
  · next hj =>
    rw [hj] at ha
    cases ha

theorem Succeeds.ite {c : Prop} [Decidable c] {j' : Job α} (h : j.Succeeds) (h' : j'.Succeeds) :
    Succeeds (if c then j else j') := by
  split
  · exact h
  · exact h'

/-- What is left by a job that changes no file. -/
theorem Succeeds.run_eq {j : Job Unit} (h : j.Succeeds) (hkeeps : j.KeepsDisk) (w : World) :
    ∃ v, j.run w = (.ok (), v) ∧ v.disk = w.disk := by
  obtain ⟨_, ha⟩ := h w
  exact ⟨(j.run w).2, Prod.ext ha rfl, hkeeps w⟩

end Job

namespace Command

open Job

variable (verbosity : Nat) (told : Bool) {settings : Settings} {data : Json}
  {options : RenderOptions} {p q t folder : Path} {ps qs : List Path} {w w' : World} {d d' : Disk}
  {e : Error} {rendered : Rendered}

theorem succeeds_record (line : String) : (record told line).Succeeds :=
  (Succeeds.done ()).note.ite (Succeeds.done ())

theorem succeeds_success (s : String) : (success s).Succeeds :=
  (Succeeds.done ()).note

theorem succeeds_recordSession (r : Session.Report) :
    (recordSession verbosity r).Succeeds :=
  (succeeds_record _ _).andThen fun _ => succeeds_record _ _

theorem succeeds_recordTemplate (p : Path) (r : Session.Report) :
    (recordTemplate verbosity p r).Succeeds :=
  (succeeds_record _ _).andThen fun _ => (Succeeds.done ()).ite (Succeeds.done ()).note

/-! ## One template -/

/-- What a template gives on a disk. -/
def rendering (settings : Settings) (data : Json) (d : Disk) (p : Path) : Except Error Rendered :=
  match d.read p with
  | .error r => .error (.templateUnreadable p r)
  | .ok text => (Document.render settings text data).mapError (.notRendered p)

theorem rendering_eq_ok : rendering settings data d p = .ok rendered ↔
    ∃ text, d.read p = .ok text ∧ Document.render settings text data = .ok rendered := by
  rw [rendering]
  constructor
  · intro h
    split at h
    · cases h
    · next text hread =>
      refine ⟨text, hread, ?_⟩
      cases hrender : Document.render settings text data with
      | error e =>
        rw [hrender] at h
        cases h
      | ok r =>
        rw [hrender] at h
        cases h
        rfl
  · rintro ⟨text, hread, hrender⟩
    rw [hread]
    dsimp only
    rw [hrender]
    rfl

/-- A template that does not give a document ends the run and leaves the disk as it is. -/
theorem renderOne_error (h : rendering settings data w.disk p = .error e) :
    (renderOne verbosity settings data options told p).run w = (.error e, w) := by
  rw [rendering] at h
  rw [renderOne, run_andThen, loadTemplate, Job.run]
  cases hread : w.disk.read p with
  | error r =>
    rw [hread] at h
    cases h
    rfl
  | ok text =>
    rw [hread] at h
    dsimp only at h ⊢
    rw [Job.run]
    dsimp only
    cases hrender : Document.render settings text data with
    | error cause =>
      rw [hrender] at h
      cases h
      rfl
    | ok rendered =>
      rw [hrender] at h
      cases h

theorem deliver_runs {output : Text} (hq : destination options p = some q)
    (hwrite : w.disk.write q output = .ok d') :
    ∃ w', (deliver told options p output).run w = (.ok (), w') ∧ w'.disk = d' := by
  have hsucceeds : (if told then success (p ++ " -> " ++ q) else .done ()).Succeeds :=
    (succeeds_success _).ite (Succeeds.done ())
  have hkeeps : (if told then success (p ++ " -> " ++ q) else .done ()).KeepsDisk :=
    (keepsDisk_success _).ite (KeepsDisk.done ())
  rw [deliver, hq]
  dsimp only
  rw [Job.run, hwrite]
  exact hsucceeds.run_eq hkeeps _

/-- A template that gives a document has it written. -/
theorem renderOne_runs (h : rendering settings data w.disk p = .ok rendered)
    (hq : destination options p = some q) (hwrite : w.disk.write q rendered.output = .ok d') :
    ∃ w', (renderOne verbosity settings data options told p).run w = (.ok (), w') ∧
      w'.disk = d' := by
  obtain ⟨text, hread, hrender⟩ := rendering_eq_ok.1 h
  have hload : (loadTemplate p).run w = (.ok text, w) := by
    rw [loadTemplate, Job.run, hread]
    rfl
  obtain ⟨v, hsession, hv⟩ := (succeeds_recordSession verbosity rendered.report).run_eq
    (keepsDisk_recordSession _ _) w
  obtain ⟨v', htemplate, hv'⟩ := (succeeds_recordTemplate verbosity p rendered.report).run_eq
    (keepsDisk_recordTemplate _ _ _) v
  rw [← hv, ← hv'] at hwrite
  obtain ⟨w', hdeliver, hdisk⟩ := deliver_runs told hq hwrite
  refine ⟨w', ?_, hdisk⟩
  rw [renderOne, run_andThen, hload]
  dsimp only
  rw [hrender]
  dsimp only
  rw [run_andThen, hsession]
  dsimp only
  rw [run_andThen, htemplate]
  exact hdeliver

/-! ## Several templates -/

/-- Where the documents of some templates go that are written into a folder. -/
def IsDestination (d : Disk) (folder : Path) (ps : List Path) (r : Place) : Prop :=
  ∃ p ∈ ps, ∃ x, p.fileName? = some x ∧ d.locate (folder.join x) = .ok r

/-- Documents of different names go to different places. -/
theorem IsDestination.disjoint {r : Place} (h : IsDestination d folder ps r)
    (h' : IsDestination d folder qs r) : ∃ p ∈ ps, ∃ q ∈ qs, p.fileName? = q.fileName? := by
  obtain ⟨p, hp, x, hx, hr⟩ := h
  obtain ⟨q, hq, y, hy, hr'⟩ := h'
  obtain ⟨above, rfl⟩ := Disk.exists_cons_of_locate_join hx hr
  obtain ⟨above', heq⟩ := Disk.exists_cons_of_locate_join hy hr'
  obtain ⟨rfl, -⟩ := List.cons.inj heq
  exact ⟨p, hp, q, hq, hx.trans hy.symm⟩

/-- Whether each of some templates gives a document, and it can be written into a folder. -/
def Renders (settings : Settings) (data : Json) (d : Disk) (folder : Path) (ps : List Path) :
    Prop :=
  ∀ p ∈ ps, (∃ rendered, rendering settings data d p = .ok rendered) ∧
    ∀ x, p.fileName? = some x → ∃ d', d.write (folder.join x) [] = .ok d'

/-- What is written under another name is in the way of none of them. -/
theorem Renders.write {output : Text} {x : String} (h : Renders settings data d folder ps)
    (hnamed : d.Named) (hwrite : d.write q output = .ok d') (hq : q.fileName? = some x)
    (hother : ∀ p ∈ ps, p.fileName? ≠ some x) : Renders settings data d' folder ps := by
  intro p hp
  obtain ⟨⟨rendered, hrendered⟩, hwritable⟩ := h p hp
  obtain ⟨text, hread, hrender⟩ := rendering_eq_ok.1 hrendered
  obtain ⟨y, hy⟩ := Disk.exists_fileName? hnamed hread
  have hne : x ≠ y := by
    rintro rfl
    exact hother p hp hy
  refine ⟨⟨rendered, rendering_eq_ok.2 ⟨text, ?_, hrender⟩⟩, fun z hz => ?_⟩
  · exact (Disk.read_write_of_ne hwrite hq hy hne).2 hread
  · obtain ⟨d₁, hd₁⟩ := hwritable z hz
    exact (Disk.changesOnly_write hwrite).write hd₁

section Folder

variable (houtput : options.output = none) (hfolder : options.outDir = some folder)

include houtput hfolder

/-- The run of templates that all give documents: only their destinations change. -/
theorem renderEach_runs (hnamed : w.disk.Named) (hdistinct : (ps.map Path.fileName?).Nodup)
    (hrenders : Renders settings data w.disk folder ps) :
    ∃ w', (renderEach verbosity settings data options told ps).run w = (.ok (), w') ∧
      Disk.ChangesOnly (IsDestination w.disk folder ps) w.disk w'.disk := by
  induction ps generalizing w with
  | nil => exact ⟨w, rfl, Disk.ChangesOnly.refl _ _⟩
  | cons p ps ih =>
    obtain ⟨⟨rendered, hp⟩, hwritable⟩ := hrenders p List.mem_cons_self
    obtain ⟨text, hread, -⟩ := rendering_eq_ok.1 hp
    obtain ⟨x, hx⟩ := Disk.exists_fileName? hnamed hread
    obtain ⟨d₁, hwrite₁⟩ := hwritable x hx
    obtain ⟨d', hwrite⟩ := Disk.exists_write hwrite₁ rendered.output
    have hq : destination options p = some (folder.join x) := by
      rw [destination, houtput, hfolder, hx]
      rfl
    obtain ⟨v, hone, rfl⟩ := renderOne_runs verbosity told hp hq hwrite
    have hjoin := Path.fileName?_join folder hx
    obtain ⟨hfresh, hrest⟩ := List.nodup_cons.1 hdistinct
    -- the document has a name that no later template has, so these still render
    have hother : ∀ p ∈ ps, p.fileName? ≠ some x := by
      intro p' hp' heq
      exact hfresh (List.mem_map.2 ⟨p', hp', heq.trans hx.symm⟩)
    have hrenders' : Renders settings data w.disk folder ps := by
      intro p' hp'
      exact hrenders p' (List.mem_cons_of_mem p hp')
    obtain ⟨w', hrun, hchanges'⟩ := ih (hnamed.write hwrite hjoin) hrest
      (hrenders'.write hnamed hwrite hjoin hother)
    have hchanges := Disk.changesOnly_write hwrite
    refine ⟨w', ?_, (hchanges.mono ?_).trans (hchanges'.mono ?_)⟩
    · rw [renderEach, run_andThen, hone]
      exact hrun
    · intro r hr
      exact ⟨p, List.mem_cons_self, x, hx, hr⟩
    · -- the later destinations are the same places before and after the write
      rintro r ⟨p', hp', y, hy, hr⟩
      exact ⟨p', List.mem_cons_of_mem p hp', y, hy, (hchanges.locate _).1 hr⟩

omit houtput hfolder in
/-- Templates are rendered one after the other. -/
theorem run_renderEach_append (h : (renderEach verbosity settings data options told ps).run w =
    (.ok (), w')) : (renderEach verbosity settings data options told (ps ++ qs)).run w =
      (renderEach verbosity settings data options told qs).run w' := by
  induction ps generalizing w with
  | nil =>
    cases h
    rfl
  | cons p ps ih =>
    obtain ⟨_, v, hone, hrest⟩ := of_run_andThen h
    rw [List.cons_append, renderEach, run_andThen, hone]
    exact ih hrest

/-- The run of some templates up to one that gives no document. The documents of those before it
are there, and nothing else has changed. -/
theorem renderEach_stops (hnamed : w.disk.Named)
    (hdistinct : ((ps ++ t :: qs).map Path.fileName?).Nodup)
    (hrenders : Renders settings data w.disk folder ps)
    (hfails : rendering settings data w.disk t = .error e) :
    ∃ e' w', (renderEach verbosity settings data options told (ps ++ t :: qs)).run w =
        (.error e', w') ∧
      Disk.ChangesOnly (IsDestination w.disk folder ps) w.disk w'.disk ∧
      ∀ p ∈ ps, ∃ x rendered, p.fileName? = some x ∧
        rendering settings data w.disk p = .ok rendered ∧
        w'.disk.read (folder.join x) = .ok rendered.output := by
  rw [List.map_append, List.map_cons] at hdistinct
  obtain ⟨hbefore, -, hapart⟩ := List.nodup_append.1 hdistinct
  obtain ⟨w', hrun, hchanges⟩ := renderEach_runs verbosity told
    houtput hfolder hnamed hbefore hrenders
  obtain ⟨hnamed', hkeeps⟩ := renderEach_keeps houtput hfolder hnamed hrun
  -- what has been written does not make a template readable that was not
  have hstops : ∃ e', rendering settings data w'.disk t = .error e' := by
    cases hresult : rendering settings data w'.disk t with
    | error e' => exact ⟨e', rfl⟩
    | ok rendered =>
      obtain ⟨text, hread, hrender⟩ := rendering_eq_ok.1 hresult
      obtain ⟨x, hx⟩ := Disk.exists_fileName? hnamed' hread
      have hother : ∀ p ∈ ps, p.fileName? ≠ some x := by
        intro p hp heq
        exact hapart _ (List.mem_map_of_mem hp) _ List.mem_cons_self (heq.trans hx.symm)
      rw [rendering_eq_ok.2 ⟨text, (hkeeps hx hother).1 hread, hrender⟩] at hfails
      cases hfails
  obtain ⟨e', he'⟩ := hstops
  refine ⟨e', w', ?_, hchanges, fun p hp => ?_⟩
  · rw [run_renderEach_append _ _ hrun, renderEach, run_andThen, renderOne_error _ _ he']
  · obtain ⟨before, after, rfl⟩ := List.append_of_mem hp
    have hothers : ∀ q ∈ before ++ after, q.fileName? ≠ p.fileName? := by
      rw [List.map_append, List.map_cons, List.perm_middle.nodup_iff, ← List.map_append] at hbefore
      intro q hq heq
      exact (List.nodup_cons.1 hbefore).1 (heq ▸ List.mem_map_of_mem hq)
    obtain ⟨x, text, rendered, hx, hread, hrender, hdelivered⟩ :=
      renderEach_delivers houtput hfolder hnamed hothers hrun
    exact ⟨x, rendered, hx, rendering_eq_ok.2 ⟨text, hread, hrender⟩, hdelivered⟩

end Folder

/-! ## The command -/

/-- Without settings or data nothing is done. -/
theorem renderAll_unloaded (ps : List Path) {settingsPath : Path} (houtput : options.output = none)
    (h : ((loadSettings settingsPath).run w).1 = .error e ∨
      ((loadData options.data).run w).1 = .error e) :
    ∃ e', (renderAll verbosity settingsPath ps options).run w = (.error e', w) := by
  have hnone : ¬(options.output.isSome ∧ 1 < ps.length) := by simp [houtput]
  have hsettings := run_loadSettings settingsPath w
  have hdata := run_loadData options.data w
  rw [renderAll, if_neg hnone, run_andThen]
  rcases hload : (loadSettings settingsPath).run w with ⟨r, v⟩
  obtain rfl : v = w := by rw [← hsettings, hload]
  cases r with
  | error e' => exact ⟨e', rfl⟩
  | ok settings =>
    rw [hload] at h
    rcases hload' : (loadData options.data).run v with ⟨r', v'⟩
    obtain rfl : v' = v := by rw [← hdata, hload']
    rw [hload'] at h
    rcases h with h | h
    · cases h
    · obtain rfl : r' = .error e := h
      refine ⟨e, ?_⟩
      dsimp only
      rw [run_andThen, hload']

/-- The run of a command up to a template that gives no document. -/
theorem renderAll_stops {settingsPath : Path} (houtput : options.output = none)
    (hfolder : options.outDir = some folder) (hnamed : w.disk.Named)
    (hsettings : ((loadSettings settingsPath).run w).1 = .ok settings)
    (hdata : ((loadData options.data).run w).1 = .ok data)
    (hmake : w.disk.makeFolders folder = .ok d')
    (hdistinct : ((ps ++ t :: qs).map Path.fileName?).Nodup)
    (hrenders : Renders (overrides options settings) data d' folder ps)
    (hfails : rendering (overrides options settings) data d' t = .error e) :
    ∃ e' w', (renderAll verbosity settingsPath (ps ++ t :: qs) options).run w = (.error e', w') ∧
      Disk.ChangesOnly (IsDestination d' folder ps) d' w'.disk ∧
      ∀ p ∈ ps, ∃ x rendered, p.fileName? = some x ∧
        rendering (overrides options settings) data d' p = .ok rendered ∧
        w'.disk.read (folder.join x) = .ok rendered.output := by
  have hnone : ¬(options.output.isSome ∧ 1 < (ps ++ t :: qs).length) := by simp [houtput]
  have hsettings' : (loadSettings settingsPath).run w = (.ok settings, w) :=
    Prod.ext hsettings (run_loadSettings settingsPath w)
  have hdata' : (loadData options.data).run w = (.ok data, w) :=
    Prod.ext hdata (run_loadData options.data w)
  have hmake' : (makeOutDir options).run w = (.ok (), { w with disk := d' }) := by
    rw [makeOutDir, hfolder]
    dsimp only
    rw [Job.run, hmake]
    rfl
  have hnamed' : d'.Named := (Disk.makeFolders_grows hmake).named hnamed
  rw [renderAll, if_neg hnone]
  dsimp only
  rw [run_andThen, hsettings']
  dsimp only
  rw [run_andThen, hdata']
  dsimp only
  rw [run_andThen, hmake']
  dsimp only
  obtain ⟨e', w', hrun, hrest⟩ := renderEach_stops (w := { w with disk := d' }) verbosity _
    houtput hfolder hnamed' hdistinct hrenders hfails
  refine ⟨e', w', ?_, hrest⟩
  rw [run_andThen, hrun]

end Command

open Command Job

/-- What is left when the job of a command fails. -/
theorem Invocation.run_of_error {i : Invocation} {d : Disk} {e : Error} {w : World}
    (h : i.job.run ⟨d, [], []⟩ = (.error e, w)) :
    (i.run d).exitCode = 1 ∧ (i.run d).world.disk = w.disk := by
  rw [Invocation.run, h]
  exact ⟨rfl, rfl⟩

/-- When settings or data cannot be loaded, nothing is changed. Otherwise, when the first template
fails of those that are rendered into a folder, the documents of the ones before it are there and
no other file has changed, not at the places either where the documents of the rest would go. -/
theorem Invocation.run_stops {i : Invocation} {d : Disk} {options : RenderOptions}
    {templates : List Path} {folder : Path} (hnamed : d.Named)
    (hcommand : i.command = .render templates options) (houtput : options.output = none)
    (hfolder : options.outDir = some folder) :
    (∀ e, ((loadSettings i.settings).run ⟨d, [], []⟩).1 = .error e ∨
        ((loadData options.data).run ⟨d, [], []⟩).1 = .error e →
      (i.run d).exitCode = 1 ∧ (i.run d).world.disk = d) ∧
    ∀ settings data d' before t after e,
      ((loadSettings i.settings).run ⟨d, [], []⟩).1 = .ok settings →
      ((loadData options.data).run ⟨d, [], []⟩).1 = .ok data →
      d.makeFolders folder = .ok d' →
      templates = before ++ t :: after → (templates.map Path.fileName?).Nodup →
      Renders (overrides options settings) data d' folder before →
      rendering (overrides options settings) data d' t = .error e →
      (i.run d).exitCode = 1 ∧
      (∀ p ∈ before, ∃ x rendered, p.fileName? = some x ∧
        rendering (overrides options settings) data d' p = .ok rendered ∧
        (i.run d).world.disk.read (folder.join x) = .ok rendered.output) ∧
      (∀ r, ¬IsDestination d' folder before r →
        (i.run d).world.disk.content? r = d.content? r) ∧
      ∀ r, IsDestination d' folder (t :: after) r →
        (i.run d).world.disk.content? r = d.content? r := by
  have hjob : i.job = renderAll i.verbosity i.settings templates options := by
    rw [Invocation.job, hcommand]
    rfl
  constructor
  · intro e he
    obtain ⟨e', hrun⟩ := renderAll_unloaded i.verbosity templates houtput he
    exact Invocation.run_of_error (hjob ▸ hrun)
  · rintro settings data d' before t after e hsettings hdata hmake rfl hdistinct hrenders hfails
    obtain ⟨e', w', hrun, hchanges, hdelivered⟩ := renderAll_stops i.verbosity
      (w := ⟨d, [], []⟩) houtput hfolder hnamed hsettings hdata hmake hdistinct hrenders hfails
    obtain ⟨hexit, hdisk⟩ := Invocation.run_of_error (hjob ▸ hrun)
    rw [hdisk]
    have hothers : ∀ r, ¬IsDestination d' folder before r →
        w'.disk.content? r = d.content? r := by
      intro r hr
      rw [hchanges.others r hr, (Disk.makeFolders_grows hmake).content?]
    refine ⟨hexit, hdelivered, hothers, fun r hr => hothers r ?_⟩
    -- a place of both would have two templates of one name
    intro hbefore
    obtain ⟨p, hp, q, hq, heq⟩ := hbefore.disjoint hr
    rw [List.map_append, List.nodup_append] at hdistinct
    exact hdistinct.2.2 _ (List.mem_map_of_mem hp) _ (List.mem_map_of_mem hq) heq

/-- Three templates, of which the second has a block without an end, and a file that is where the
last document would go. -/
def openBlock : Disk :=
  .ofFiles [("a/x.md", "one".toList), ("b/y.md", "```calc\nx = 1".toList),
    ("c/z.md", "three".toList), ("out/z.md", "old".toList)]

/-- A settings file that makes no sense, and a template. -/
def badSettings : Disk :=
  .ofFiles [("stepwise.config.json", "\x7b".toList), ("a/x.md", "one".toList)]

/-- A file of data that makes no sense, and a template. -/
def badData : Disk :=
  .ofFiles [("data.json", "[1,".toList), ("a/x.md", "one".toList)]

/-- The templates of `renderInto` with a file of data. -/
def renderData (folder data : Path) (templates : List Path) : Invocation :=
  { renderInto folder templates with
    command := .render templates { intoFolder folder with data := some data } }

theorem Invocation.run_stops_of_openBlock :
    let before := ["a/x.md"]
    let after := ["c/z.md"]
    let i := renderInto "out" (before ++ "b/y.md" :: after)
    let j := renderData "out" "data.json" ["a/x.md"]
    let settings := overrides (intoFolder "out") {}
    let outcome := i.run openBlock
    openBlock.Named ∧ ((loadSettings i.settings).run ⟨openBlock, [], []⟩).1 = .ok {} ∧
      ((loadData (intoFolder "out").data).run ⟨openBlock, [], []⟩).1 = .ok (.object []) ∧
      openBlock.makeFolders "out" = .ok openBlock ∧
      ((before ++ "b/y.md" :: after).map Path.fileName?).Nodup ∧
      Renders settings (.object []) openBlock "out" before ∧
      rendering settings (.object []) openBlock "b/y.md" =
        .error (.notRendered "b/y.md" (.fence (.unterminated 1))) ∧
      outcome.exitCode = 1 ∧ outcome.world.disk.read "out/x.md" = .ok "one".toList ∧
      outcome.world.disk.content? ["y.md", "out"] = none ∧
      outcome.world.disk.content? ["z.md", "out"] = some "old".toList ∧
      badSettings.Named ∧
      ((loadSettings i.settings).run ⟨badSettings, [], []⟩).1 =
        .error (.settingsMalformed "stepwise.config.json") ∧
      (i.run badSettings).exitCode = 1 ∧ (i.run badSettings).world.disk = badSettings ∧
      badData.Named ∧
      ((loadData (some "data.json")).run ⟨badData, [], []⟩).1 =
        .error (.dataMalformed "data.json") ∧
      (j.run badData).exitCode = 1 ∧ (j.run badData).world.disk = badData := by
  intro before after i j settings outcome
  have hnamed : openBlock.Named := Disk.named_ofFiles (by decide +kernel)
  have hsettings : ((loadSettings i.settings).run ⟨openBlock, [], []⟩).1 = .ok {} := by
    have hnone : openBlock.has "stepwise.config.json" = false := by decide +kernel
    show ((loadSettings "stepwise.config.json").run ⟨openBlock, [], []⟩).1 = _
    rw [loadSettings, Job.run, hnone]
    rfl
  have hdata : ((loadData (intoFolder "out").data).run ⟨openBlock, [], []⟩).1 =
      .ok (.object []) := rfl
  have hmake : openBlock.makeFolders "out" = .ok openBlock := rfl
  have hdistinct : ((before ++ "b/y.md" :: after).map Path.fileName?).Nodup := by decide +kernel
  have hname : Path.fileName? "a/x.md" = some "x.md" := by decide +kernel
  have hdocument : (rendering settings (.object []) openBlock "a/x.md").toOption.map
      Rendered.output = some "one".toList := by
    decide +kernel
  have hrenders : Renders settings (.object []) openBlock "out" before := by
    refine List.forall_mem_singleton.2 ⟨?_, fun x hx => ?_⟩
    · cases hone : rendering settings (.object []) openBlock "a/x.md" with
      | error e =>
        rw [hone] at hdocument
        cases hdocument
      | ok rendered => exact ⟨rendered, rfl⟩
    · obtain rfl := Option.some.inj (hname.symm.trans hx)
      exact ⟨_, rfl⟩
  have hfails : rendering settings (.object []) openBlock "b/y.md" =
      .error (.notRendered "b/y.md" (.fence (.unterminated 1))) := by
    show rendering (overrides (intoFolder "out") {}) (.object []) openBlock "b/y.md" = _
    rfl
  have hbad : badSettings.Named := Disk.named_ofFiles (by decide +kernel)
  have hunloaded : ((loadSettings i.settings).run ⟨badSettings, [], []⟩).1 =
      .error (.settingsMalformed "stepwise.config.json") := by
    have hsome : badSettings.has "stepwise.config.json" = true := by decide +kernel
    show ((loadSettings "stepwise.config.json").run ⟨badSettings, [], []⟩).1 = _
    rw [loadSettings, Job.run, hsome]
    rfl
  obtain ⟨hexitSettings, hdiskSettings⟩ :=
    (Invocation.run_stops (i := i) hbad rfl rfl rfl).1 _ (.inl hunloaded)
  have hbadData : badData.Named := Disk.named_ofFiles (by decide +kernel)
  have hmalformed : ((loadData (some "data.json")).run ⟨badData, [], []⟩).1 =
      .error (.dataMalformed "data.json") := rfl
  obtain ⟨hexitData, hdiskData⟩ :=
    (Invocation.run_stops (i := j) hbadData rfl rfl rfl).1 _ (.inr hmalformed)
  obtain ⟨hexit, hdelivered, hothers, hrest⟩ := (Invocation.run_stops hnamed rfl rfl rfl).2 {}
    (.object []) openBlock before "b/y.md" after _ hsettings hdata hmake rfl hdistinct hrenders
    hfails
  obtain ⟨x, rendered, hx, hone, hread⟩ := hdelivered "a/x.md" List.mem_cons_self
  obtain rfl := Option.some.inj (hname.symm.trans hx)
  rw [hone] at hdocument
  have hafter : ∀ q ∈ ["b/y.md", "c/z.md"], ∀ x, Path.fileName? q = some x → ∀ r,
      openBlock.locate (Path.join "out" x) = .ok r →
      outcome.world.disk.content? r = openBlock.content? r :=
    fun q hq x hx r hr => hrest r ⟨q, hq, x, hx, hr⟩
  exact ⟨hnamed, hsettings, hdata, hmake, hdistinct, hrenders, hfails, hexit,
    hread.trans (congrArg _ (Option.some.inj hdocument)),
    hafter "b/y.md" (by decide) "y.md" (by decide +kernel) _ rfl,
    hafter "c/z.md" (by decide) "z.md" (by decide +kernel) _ rfl, hbad, hunloaded,
    hexitSettings, hdiskSettings, hbadData, hmalformed, hexitData, hdiskData⟩

end CalcDoc
