import CalcDoc.Proofs.Files.Disks

/-!
# Disks with some files changed

- `Disk.ChangesOnly`: two disks with the same folders, and the same files but for some places.
- `Disk.changesOnly_write`: a file that is written is the only one to change.
- `Disk.ChangesOnly.locate`, `Disk.ChangesOnly.write`: paths lead where they led, and what could be
  written still can be.
- `Disk.exists_cons_of_locate_join`: a file in a folder lies under its name.
-/

namespace CalcDoc

namespace Disk

variable {d d' d'' : Disk} {p folder : Path} {t : Text} {P Q : Place → Prop} {place : Place}

/-- What separates two disks is in the files at some places. -/
structure ChangesOnly (P : Place → Prop) (d d' : Disk) : Prop where
  folders : ∀ r, d'.entry? r = some .folder ↔ d.entry? r = some .folder
  others : ∀ r, ¬P r → d'.content? r = d.content? r

namespace ChangesOnly

theorem refl (P : Place → Prop) (d : Disk) : ChangesOnly P d d :=
  ⟨fun _ => Iff.rfl, fun _ _ => rfl⟩

theorem trans (h : ChangesOnly P d d') (h' : ChangesOnly P d' d'') : ChangesOnly P d d'' :=
  ⟨fun r => (h'.folders r).trans (h.folders r),
    fun r hr => (h'.others r hr).trans (h.others r hr)⟩

theorem mono (hPQ : ∀ r, P r → Q r) (h : ChangesOnly P d d') : ChangesOnly Q d d' :=
  ⟨h.folders, fun r hr => h.others r fun hp => hr (hPQ r hp)⟩

theorem locate (h : ChangesOnly P d d') (p : Path) : d'.locate p = .ok place ↔
    d.locate p = .ok place :=
  ⟨walk_of_folders fun r => (h.folders r).1, walk_of_folders fun r => (h.folders r).2⟩

theorem target (h : ChangesOnly P d d') (htarget : d.target p = .ok place) :
    d'.target p = .ok place := by
  rw [Disk.target] at htarget ⊢
  split at htarget
  · cases htarget
  · next r hr =>
    rw [(h.locate _).2 hr]
    exact htarget

/-- What can be written on a disk can still be written when some files have changed. -/
theorem write (h : ChangesOnly P d d') (hwrite : d.write p t = .ok d'') :
    ∃ e, d'.write p t = .ok e := by
  rw [Disk.write] at hwrite ⊢
  split at hwrite
  · cases hwrite
  · next r htarget =>
    rw [h.target htarget]
    dsimp only
    split
    · next hfolder =>
      rw [(h.folders r).1 hfolder] at hwrite
      cases hwrite
    · exact ⟨_, rfl⟩

end ChangesOnly

/-- A file that is written is the only one to change. -/
theorem changesOnly_write (h : d.write p t = .ok d') :
    ChangesOnly (fun r => d.locate p = .ok r) d d' := by
  obtain ⟨place, hplace, hfolder, rfl⟩ := exists_put h
  refine ⟨fun r => folder_put hfolder, fun r hr => ?_⟩
  rw [content?_put, if_neg]
  rintro rfl
  exact hr hplace

/-- A file in a folder lies under its name. -/
theorem exists_cons_of_locate_join {name : String} (hname : p.fileName? = some name)
    (h : d.locate (folder.join name) = .ok place) : ∃ above, place = name :: above := by
  obtain ⟨hpart, hx, hup⟩ := Path.of_fileName?_eq_some hname
  obtain ⟨xs, hparts⟩ := Path.exists_parts_join folder (Path.notMem_of_mem_parts hpart)
  rw [locate, hparts] at h
  obtain ⟨above, -, -, rfl⟩ := walk_concat h
  exact ⟨above, step_name (not_or.2 hx) hup above⟩

end Disk

end CalcDoc
