import CalcDoc.Files.Disk
import CalcDoc.Proofs.Lines
import CalcDoc.Proofs.Trimming

/-!
# Files on a disk

- `Path.fileName?_join`: the name of a file in a folder.
- `Disk.name_of_locate`: what is no folder lies under the name that its path ends with.
- `Disk.walk_of_folders`: a path still leads where it led if no folder has gone.
- `Disk.read_write`, `Disk.read_write_of_ne`: a file that has been written, and one of another
  name.
- `Disk.Named`: no file lies where only a folder can lie; files on such a disk have names.
- `Disk.Grows`, `Disk.makeFolders_grows`: folders are made and nothing else changes.
-/

namespace CalcDoc

/-! ## Names -/

namespace Path

theorem parts_ne_nil (p : Path) : p.parts ≠ [] :=
  fun h => Text.split_ne_nil '/' p.toList (List.map_eq_nil_iff.1 h)

/-- The name of a file is a part that leads on from a folder. -/
theorem fileName?_of_parts {p : Path} {xs : List String} {x : String}
    (hparts : p.parts = xs ++ [x]) (hx : x ≠ "" ∧ x ≠ ".") :
    p.fileName? = if x = ".." then none else some x := by
  have hsteps : p.steps = x :: (xs.filter fun x => x ≠ "" ∧ x ≠ ".").reverse := by
    rw [steps, hparts]
    simp [hx]
  rw [fileName?, hsteps]

theorem exists_steps {p : Path} {name : String} (h : p.fileName? = some name) :
    ∃ xs, p.steps = name :: xs ∧ name ≠ ".." := by
  rw [fileName?] at h
  split at h
  · next x xs hsteps =>
    split at h
    · cases h
    · next hup =>
      obtain rfl := Option.some.inj h
      exact ⟨xs, hsteps, hup⟩
  · cases h

theorem of_fileName?_eq_some {p : Path} {name : String} (h : p.fileName? = some name) :
    name ∈ p.parts ∧ (name ≠ "" ∧ name ≠ ".") ∧ name ≠ ".." := by
  obtain ⟨xs, hsteps, hup⟩ := exists_steps h
  have hmem : name ∈ p.steps := hsteps ▸ List.mem_cons_self
  obtain ⟨hparts, hx⟩ := List.mem_filter.1 (List.mem_reverse.1 hmem)
  exact ⟨hparts, of_decide_eq_true hx, hup⟩

theorem notMem_of_mem_parts {p : Path} {x : String} (h : x ∈ p.parts) : '/' ∉ x.toList := by
  obtain ⟨l, hl, rfl⟩ := List.mem_map.1 h
  rw [String.toList_ofList]
  exact Text.notMem_of_mem_split hl

/-- The last part of the path of a file in a folder is its name. -/
theorem exists_parts_join (folder : Path) {name : String} (h : '/' ∉ name.toList) :
    ∃ xs, (folder.join name).parts = xs ++ [name] := by
  have hname : Text.split '/' name.toList = [name.toList] := Text.split_of_notMem h
  have hbehind : ∀ t : Text, (Text.split '/' (t ++ '/' :: name.toList)).map String.ofList =
      (Text.split '/' t).map String.ofList ++ [name] := by
    intro t
    rw [Text.split_append, hname, List.map_append, List.map_singleton, String.ofList_toList]
  rw [parts, join]
  split
  · next hfolder =>
    rcases hfolder with rfl | hlast
    · exact ⟨[], by simp [hname]⟩
    · obtain ⟨t, ht⟩ := List.getLast?_eq_some_iff.1 hlast
      refine ⟨(Text.split '/' t).map String.ofList, ?_⟩
      rw [String.toList_append, ht, ← hbehind, List.append_assoc, List.singleton_append]
  · refine ⟨(Text.split '/' folder.toList).map String.ofList, ?_⟩
    rw [String.toList_append, String.toList_append, ← hbehind, List.append_assoc]
    rfl

/-- A file in a folder keeps the name of the path that it is named after. -/
theorem fileName?_join (folder : Path) {p : Path} {name : String} (h : p.fileName? = some name) :
    (folder.join name).fileName? = some name := by
  obtain ⟨hpart, hx, hup⟩ := of_fileName?_eq_some h
  obtain ⟨xs, hparts⟩ := exists_parts_join folder (notMem_of_mem_parts hpart)
  rw [fileName?_of_parts hparts hx, if_neg hup]

end Path

namespace Disk

variable {d d' : Disk} {p q : Path} {t u : Text} {place : Place}

/-! ## Walking -/

theorem entry?_of_content? (h : d.content? place = some t) : d.entry? place = some (.file t) := by
  unfold entry?
  rw [h]

theorem entry?_eq_file : d.entry? place = some (.file t) ↔ d.content? place = some t := by
  refine ⟨fun h => ?_, entry?_of_content?⟩
  unfold entry? at h
  split at h
  · next hc =>
    cases h
    exact hc
  · split at h <;> cases h

theorem entry?_eq_folder : d.entry? place = some .folder ↔
    d.content? place = none ∧ (isAbove place || d.folders.contains place) := by
  unfold entry?
  split
  · next hc => simp [hc]
  · next hc =>
    split
    · next hfolder => exact ⟨fun _ => ⟨hc, hfolder⟩, fun _ => rfl⟩
    · next hfolder => exact ⟨nofun, fun h => absurd h.2 hfolder⟩

theorem walk_cons {x : String} {xs : List String} {r : Place}
    (h : d.walk place (x :: xs) = .ok r) :
    d.entry? place = some .folder ∧ d.walk (step place x) xs = .ok r := by
  rw [walk] at h
  split at h
  · cases h
  · cases h
  · next hfolder => exact ⟨hfolder, h⟩

theorem walk_concat {x : String} {xs : List String} {r : Place}
    (h : d.walk place (xs ++ [x]) = .ok r) :
    ∃ folder, d.walk place xs = .ok folder ∧ d.entry? folder = some .folder ∧
      r = step folder x := by
  induction xs generalizing place with
  | nil =>
    obtain ⟨hfolder, hr⟩ := walk_cons h
    cases hr
    exact ⟨place, rfl, hfolder, rfl⟩
  | cons y ys ih =>
    obtain ⟨hfolder, hr⟩ := walk_cons h
    obtain ⟨folder, hwalk, hlast⟩ := ih hr
    refine ⟨folder, ?_, hlast⟩
    rw [walk, hfolder]
    exact hwalk

theorem step_here {x : String} (hx : x = "" ∨ x = ".") (folder : Place) :
    step folder x = folder := by
  unfold step
  rw [if_pos hx]

theorem step_name {x : String} (hx : ¬(x = "" ∨ x = ".")) (hup : x ≠ "..") (folder : Place) :
    step folder x = x :: folder := by
  unfold step
  rw [if_neg hx, if_neg hup]

/-- One step up leads nowhere, further up, or to the folder around. -/
theorem step_up (folder : Place) : step folder ".." = folder ∨ step folder ".." = ".." :: folder ∨
    ∃ y, folder = y :: step folder ".." := by
  unfold step
  rw [if_neg (by decide), if_pos rfl]
  split
  · exact .inl rfl
  · next y rest _ =>
    split
    · exact .inr (.inl rfl)
    · exact .inr (.inr ⟨y, rfl⟩)
  · exact .inr (.inl rfl)

/-- What the last part of a path leads to. -/
theorem exists_last (h : d.locate p = .ok place) :
    ∃ xs x folder, p.parts = xs ++ [x] ∧ d.walk (origin p) xs = .ok folder ∧
      d.entry? folder = some .folder ∧ place = step folder x := by
  have hparts := (List.dropLast_concat_getLast p.parts_ne_nil).symm
  rw [locate, hparts] at h
  obtain ⟨folder, hlast⟩ := walk_concat h
  exact ⟨_, _, folder, hparts, hlast⟩

/-- What is no folder lies under the name that its path ends with. -/
theorem name_of_locate {name : String} (hname : p.fileName? = some name)
    (h : d.locate p = .ok place) (hfolder : d.entry? place ≠ some .folder) :
    ∃ folder, place = name :: folder := by
  obtain ⟨xs, x, folder, hparts, -, hf, rfl⟩ := exists_last h
  by_cases hx : x = "" ∨ x = "."
  · rw [step_here hx] at hfolder
    exact absurd hf hfolder
  · have hlast := Path.fileName?_of_parts hparts (not_or.1 hx)
    rw [hname] at hlast
    split at hlast
    · cases hlast
    · next hup =>
      obtain rfl := Option.some.inj hlast
      exact ⟨folder, step_name hx hup folder⟩

/-- A path still leads where it led if no folder has gone. -/
theorem walk_of_folders
    (h : ∀ r, d.entry? r = some .folder → d'.entry? r = some .folder) {xs : List String}
    {r : Place} (hwalk : d.walk place xs = .ok r) : d'.walk place xs = .ok r := by
  induction xs generalizing place with
  | nil => exact hwalk
  | cons x xs ih =>
    obtain ⟨hfolder, hrest⟩ := walk_cons hwalk
    rw [walk, h place hfolder]
    exact ih hrest

/-! ## Reading and writing -/

theorem read_eq_ok : d.read p = .ok t ↔
    ∃ place, d.locate p = .ok place ∧ d.content? place = some t := by
  rw [read, find]
  cases hplace : d.locate p with
  | error e => simp
  | ok place =>
    simp only [← entry?_eq_file, Except.ok.injEq, exists_eq_left']
    cases d.entry? place with
    | none => simp
    | some e => cases e <;> simp

theorem withoutSlashes_of_getLast? (h : p.toList.getLast? ≠ some '/') : withoutSlashes p = p := by
  obtain ⟨y, hy, hslashes⟩ := Text.exists_dropEndWhile (· == '/') p.toList
  rcases List.eq_nil_or_concat y with rfl | ⟨s, c, rfl⟩
  · rw [List.append_nil] at hy
    rw [withoutSlashes, ← hy, String.ofList_toList]
  · rw [List.concat_eq_append] at hy hslashes
    have hmem : c ∈ s ++ [c] := List.mem_append_right s (List.mem_singleton_self c)
    have hc : c = '/' := eq_of_beq (hslashes c hmem)
    rw [hy, hc, ← List.append_assoc, List.getLast?_concat] at h
    exact absurd rfl h

/-- A path that is written to leads to no folder and has its content put there. -/
theorem exists_put (h : d.write p t = .ok d') :
    ∃ place, d.locate p = .ok place ∧ d.entry? place ≠ some .folder ∧ d' = d.put place t := by
  rw [write] at h
  split at h
  · cases h
  · next place htarget =>
    have hplace : d.locate p = .ok place := by
      rw [target] at htarget
      split at htarget
      · cases htarget
      · next hlocate =>
        split at htarget
        · cases htarget
        · next hslash =>
          cases htarget
          rwa [withoutSlashes_of_getLast? hslash] at hlocate
    split at h
    · cases h
    · next hfolder =>
      cases h
      exact ⟨place, hplace, hfolder, rfl⟩

/-- The folders are the same after a file was put where no folder is. -/
theorem folder_put (h : d.entry? place ≠ some .folder) {r : Place} :
    entry? (d.put place t) r = some .folder ↔ d.entry? r = some .folder := by
  by_cases hr : r = place
  · subst hr
    simp [entry?_eq_folder, content?_put, h]
  · simp only [entry?_eq_folder, content?_put, if_neg hr]
    rfl

theorem locate_put (h : d.entry? place ≠ some .folder) {r : Place} :
    (d.put place t).locate p = .ok r ↔ d.locate p = .ok r :=
  ⟨walk_of_folders fun _ => (folder_put h).1, walk_of_folders fun _ => (folder_put h).2⟩

theorem read_write (h : d.write p t = .ok d') : d'.read p = .ok t := by
  obtain ⟨place, hplace, hfolder, rfl⟩ := exists_put h
  exact read_eq_ok.2 ⟨place, (locate_put hfolder).2 hplace, by rw [content?_put, if_pos rfl]⟩

theorem has_of_read (h : d.read p = .ok t) : d.has p = true := by
  rw [read] at h
  rw [has]
  split at h
  · next hfind => rw [hfind]
  · cases h
  · cases h

/-- Whether a file can be written does not depend on what is to be in it. -/
theorem exists_write (h : d.write p t = .ok d') (u : Text) : ∃ d'', d.write p u = .ok d'' := by
  rw [write] at h ⊢
  cases htarget : d.target p with
  | error e =>
    rw [htarget] at h
    cases h
  | ok place =>
    rw [htarget] at h
    dsimp only at h ⊢
    cases hentry : d.entry? place with
    | none => exact ⟨_, rfl⟩
    | some e =>
      cases e with
      | file _ => exact ⟨_, rfl⟩
      | folder =>
        rw [hentry] at h
        cases h

/-- What a file holds is not changed by writing one of another name. -/
theorem read_write_of_ne {x y : String} (h : d.write p t = .ok d') (hp : p.fileName? = some x)
    (hq : q.fileName? = some y) (hne : x ≠ y) : d'.read q = .ok u ↔ d.read q = .ok u := by
  obtain ⟨place, hplace, hfolder, rfl⟩ := exists_put h
  have hother : ∀ r, d.locate q = .ok r → r ≠ place := by
    rintro r hr rfl
    obtain ⟨above, rfl⟩ := name_of_locate hp hplace hfolder
    obtain ⟨above', heq⟩ := name_of_locate hq hr hfolder
    exact hne (List.cons.inj heq).1
  simp only [read_eq_ok, locate_put hfolder, content?_put]
  refine exists_congr fun r => and_congr_right fun hr => ?_
  rw [if_neg (hother r hr)]

/-! ## Files with names -/

/-- No file lies where only a folder can lie: at the working folder, or under the name `..`. -/
structure Named (d : Disk) : Prop where
  here : d.content? [] = none
  up : ∀ p, d.content? (".." :: p) = none

/-- Files of which each has a name. -/
theorem named_ofFiles {files : List (Path × Text)} (h : ∀ f ∈ files, f.1.fileName?.isSome) :
    (ofFiles files).Named := by
  have hname : ∀ r t, (ofFiles files).content? r = some t → ∃ x rest, r = x :: rest ∧ x ≠ ".." := by
    intro r t hr
    obtain ⟨l, l', hl, -⟩ := List.lookup_eq_some_iff.1 hr
    have hmem : (r, t) ∈ files.map fun f => (f.1.steps, f.2) := by
      show (r, t) ∈ (ofFiles files).files
      simp [hl]
    obtain ⟨f, hf, heq⟩ := List.mem_map.1 hmem
    obtain ⟨x, hx⟩ := Option.isSome_iff_exists.1 (h f hf)
    obtain ⟨rest, hsteps, hup⟩ := Path.exists_steps hx
    exact ⟨x, rest, (congrArg Prod.fst heq).symm.trans hsteps, hup⟩
  constructor
  · refine Option.eq_none_iff_forall_ne_some.2 fun t ht => ?_
    obtain ⟨x, rest, heq, -⟩ := hname [] t ht
    cases heq
  · refine fun r => Option.eq_none_iff_forall_ne_some.2 fun t ht => ?_
    obtain ⟨x, rest, heq, hx⟩ := hname _ t ht
    exact hx (List.cons.inj heq).1.symm

/-- A file that is written under a name leaves it so. -/
theorem Named.write {x : String} (hd : d.Named) (h : d.write p t = .ok d')
    (hp : p.fileName? = some x) : d'.Named := by
  obtain ⟨place, hplace, hfolder, rfl⟩ := exists_put h
  obtain ⟨above, rfl⟩ := name_of_locate hp hplace hfolder
  have hup := (Path.of_fileName?_eq_some hp).2.2
  constructor
  · rw [content?_put, if_neg (List.cons_ne_nil _ _).symm]
    exact hd.here
  · intro r
    rw [content?_put, if_neg fun heq => hup (List.cons.inj heq).1.symm]
    exact hd.up r

/-- A place with folders all around it. -/
def Surrounded (d : Disk) (place : Place) : Prop :=
  ∀ r, r <:+ place → r ≠ place → d.entry? r = some .folder

theorem Surrounded.step {x : String} (h : d.Surrounded place)
    (hplace : d.entry? place = some .folder) : d.Surrounded (step place x) := by
  have hall : ∀ r, r <:+ place → d.entry? r = some .folder := by
    intro r hr
    by_cases heq : r = place
    · rwa [heq]
    · exact h r hr heq
  have hbelow : ∀ y, d.Surrounded (y :: place) := by
    intro y r hr hne
    exact hall r ((List.suffix_cons_iff.1 hr).resolve_left hne)
  by_cases hx : x = "" ∨ x = "."
  · rwa [step_here hx]
  · by_cases hup : x = ".."
    · subst hup
      rcases step_up place with heq | heq | ⟨y, heq⟩
      · rwa [heq]
      · rw [heq]
        exact hbelow ".."
      · exact fun r hr _ => hall r (hr.trans ⟨[y], heq.symm⟩)
    · rw [step_name hx hup]
      exact hbelow x

theorem surrounded_of_walk {xs : List String} {r : Place} (h : d.Surrounded place)
    (hwalk : d.walk place xs = .ok r) : d.Surrounded r := by
  induction xs generalizing place with
  | nil =>
    cases hwalk
    exact h
  | cons x xs ih =>
    obtain ⟨hfolder, hrest⟩ := walk_cons hwalk
    exact ih (h.step hfolder) hrest

theorem surrounded_origin (p : Path) (hd : d.Named) : d.Surrounded (origin p) := by
  have hhere : d.entry? [] = some .folder := entry?_eq_folder.2 ⟨hd.here, rfl⟩
  rw [origin]
  split
  · intro r hr hne
    obtain rfl := List.suffix_nil.1 ((List.suffix_cons_iff.1 hr).resolve_left hne)
    exact hhere
  · intro r hr hne
    exact absurd (List.suffix_nil.1 hr) hne

/-- The path of a file ends with a name. -/
theorem exists_fileName? (hd : d.Named) (h : d.read p = .ok t) : ∃ x, p.fileName? = some x := by
  obtain ⟨place, hplace, hfile⟩ := read_eq_ok.1 h
  obtain ⟨xs, x, folder, hparts, hwalk, hfolder, rfl⟩ := exists_last hplace
  have hnot : d.entry? (Disk.step folder x) ≠ some .folder := by
    rw [entry?_of_content? hfile]
    nofun
  by_cases hx : x = "" ∨ x = "."
  · rw [step_here hx] at hnot
    exact absurd hfolder hnot
  · have hlast := Path.fileName?_of_parts hparts (not_or.1 hx)
    by_cases hup : x = ".."
    · -- one step up from a folder is a folder again
      subst hup
      have hsurrounded := surrounded_of_walk (surrounded_origin p hd) hwalk
      rcases step_up folder with heq | heq | ⟨y, heq⟩
      · rw [heq] at hnot
        exact absurd hfolder hnot
      · rw [heq, hd.up] at hfile
        cases hfile
      · have hfolder := hsurrounded (Disk.step folder "..") ⟨[y], heq.symm⟩ fun hsame => ?_
        · exact absurd hfolder hnot
        · rw [hsame] at heq
          exact List.cons_ne_self y folder heq.symm
    · exact ⟨x, by rw [hlast, if_neg hup]⟩

/-! ## Making folders -/

/-- A disk with more folders than another one and the same files. -/
structure Grows (d d' : Disk) : Prop where
  files : d'.files = d.files
  folders : d.folders ⊆ d'.folders

namespace Grows

theorem refl (d : Disk) : d.Grows d :=
  ⟨rfl, List.Subset.refl _⟩

theorem trans {d'' : Disk} (h : d.Grows d') (h' : d'.Grows d'') : d.Grows d'' :=
  ⟨h'.files.trans h.files, List.Subset.trans h.folders h'.folders⟩

theorem content? (h : d.Grows d') (r : Place) : d'.content? r = d.content? r := by
  rw [Disk.content?, h.files, ← Disk.content?]

theorem named (h : d.Grows d') (hd : d.Named) : d'.Named :=
  ⟨(h.content? _).trans hd.here, fun r => (h.content? _).trans (hd.up r)⟩

theorem read (h : d.Grows d') (hread : d.read p = .ok t) : d'.read p = .ok t := by
  obtain ⟨place, hplace, hfile⟩ := read_eq_ok.1 hread
  refine read_eq_ok.2 ⟨place, walk_of_folders (fun r hr => ?_) hplace, by rwa [h.content?]⟩
  obtain ⟨hnone, hfolder⟩ := entry?_eq_folder.1 hr
  refine entry?_eq_folder.2 ⟨by rwa [h.content?], ?_⟩
  rw [Bool.or_eq_true, List.contains_iff_mem] at hfolder ⊢
  exact hfolder.imp_right fun hr => h.folders hr

end Grows

theorem makeFolder_grows (h : d.makeFolder p = .ok d') : d.Grows d' := by
  rw [makeFolder] at h
  split at h
  · cases h
  · split at h
    · cases h
    · cases h
      exact ⟨rfl, List.subset_cons_self _ _⟩

theorem ensureFolder_grows (h : d.ensureFolder p = .ok d') : d.Grows d' := by
  rw [ensureFolder] at h
  split at h
  · next hmake =>
    cases h
    exact makeFolder_grows hmake
  · split at h
    · cases h
      exact Grows.refl d
    · cases h

theorem makeNested_grows {ps : List Path} (h : d.makeNested ps = .ok d') : d.Grows d' := by
  induction ps generalizing d d' with
  | nil =>
    cases h
    exact Grows.refl d
  | cons p around ih =>
    rw [makeNested] at h
    split at h
    · next hensure =>
      cases h
      exact ensureFolder_grows hensure
    · split at h
      · next haround => exact (ih haround).trans (ensureFolder_grows h)
      · cases h
    · cases h

/-- Making a folder changes no file. -/
theorem makeFolders_grows (h : d.makeFolders p = .ok d') : d.Grows d' :=
  makeNested_grows h

end Disk

end CalcDoc
