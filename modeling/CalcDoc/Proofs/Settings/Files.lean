import CalcDoc.Command.Actions
import CalcDoc.Proofs.Files.Disks
import CalcDoc.Proofs.Json.Quoted

/-!
# Settings files are read back

A settings file holds one line for each field, in a fixed order. It is read line by line: a line
adds the value of its field to what has been read before, and changes nothing else.

- `Settings.Draft.take`: what has been read, with one more field of some settings.
- `Settings.Draft.readNamed_fieldText`, `Settings.Draft.readObject_fieldLines`: the field on one
  line, and those on all lines.
- `Settings.ofText?_text`: the settings of the file that holds them.
- `Command.loadSettings_saveSettings`: settings that have been saved are loaded again.
-/

namespace CalcDoc

/-! ## Names -/

theorem BlockDisplay.ofName?_name (b : BlockDisplay) : BlockDisplay.ofName? b.name = some b := by
  cases b <;> rfl

theorem Settings.Field.ofName?_name (f : Settings.Field) :
    Settings.Field.ofName? f.name = some f := by
  cases f <;> rfl

theorem Settings.Field.nodup_all : Settings.Field.all.Nodup := by
  decide

namespace Settings

variable {s : Settings} {t rest : Text}

/-! ## Values -/

theorem readBool_text (b : Bool) (rest : Text) :
    readBool (' ' :: ((if b then "true" else "false").toList ++ rest)) = some (b, rest) := by
  cases b <;> rfl

theorem skipSpace_quote (x : String) (rest : Text) :
    Text.skipSpace (' ' :: (Json.quote x ++ rest)) = Json.quote x ++ rest :=
  rfl

theorem readString_value (x : String) (rest : Text) :
    Json.readString true (' ' :: (Json.quote x ++ rest)) = some (x, rest) :=
  Json.readString_quote (skipSpace_quote x rest)

/-- A display that is written as its name is read; it does not begin like an object. -/
theorem readDisplay_name (b : BlockDisplay) (rest : Text) :
    readDisplay (' ' :: (Json.quote b.name ++ rest)) = some (b, rest) := by
  have hname : readDisplayName (Json.quote b.name ++ rest) = some (b, rest) := by
    have hread : Json.readString true (Json.quote b.name ++ rest) = some (b.name, rest) :=
      Json.readString_quote rfl
    rw [readDisplayName, hread]
    show (BlockDisplay.ofName? b.name).map _ = _
    rw [BlockDisplay.ofName?_name, Option.map_some]
  rw [readDisplay, skipSpace_quote]
  exact hname

namespace Draft

/-- What has been read, with a field as some settings have it. -/
def take (s : Settings) (d : Draft) : Field → Draft
  | .openMarker => { d with openMarker := some s.openMarker }
  | .closeMarker => { d with closeMarker := some s.closeMarker }
  | .helper => { d with helper := some s.helper }
  | .undefined => { d with undefined := some s.undefined }
  | .blocks => { d with blocks := some s.blocks }
  | .strictReferences => { d with strictReferences := some s.strictReferences }
  | .strictMode => { d with strictMode := some s.strictMode }

/-- A field counts as read once it has been taken, and no other field does for it. -/
theorem has_take (s : Settings) (d : Draft) (f g : Field) :
    (d.take s f).has g = (g == f || d.has g) := by
  cases f <;> cases g <;> rfl

/-- Once all fields have been taken, no default is left. -/
theorem settings_take_all (s : Settings) : (Field.all.foldl (take s) {}).settings = s :=
  rfl

/-- The value of a field is read as that value. -/
theorem readField_fieldText (s : Settings) (d : Draft) (f : Field) (rest : Text) :
    d.readField f (' ' :: (s.fieldText f ++ rest)) = some (d.take s f, rest) := by
  cases f with
  | openMarker => simp only [readField, fieldText, readString_value, Option.map_some, take]
  | closeMarker => simp only [readField, fieldText, readString_value, Option.map_some, take]
  | helper => simp only [readField, fieldText, readString_value, Option.map_some, take]
  | undefined => simp only [readField, fieldText, readString_value, Option.map_some, take]
  | blocks => simp only [readField, fieldText, readDisplay_name, Option.map_some, take]
  | strictReferences => simp only [readField, fieldText, readBool_text, Option.map_some, take]
  | strictMode => simp only [readField, fieldText, readBool_text, Option.map_some, take]

/-! ## Lines -/

/-- The line of a field that has not been read yet is read as that field. -/
theorem readNamed_fieldText {d : Draft} {f : Field} (hnew : d.has f = false) (rest : Text) :
    d.readNamed f.name (' ' :: (s.fieldText f ++ rest)) = some (d.take s f, rest) := by
  simp only [readNamed, Field.ofName?_name, hnew, Bool.false_eq_true, if_false,
    readField_fieldText]

theorem readObject_end {d : Draft} {f : Field} {after : Text} (hnew : d.has f = false)
    (ht : Text.skipSpace t = Json.quote f.name ++ ':' :: ' ' :: (s.fieldText f ++ rest))
    (hend : Text.skipSpace rest = '\x7d' :: after) (count : Nat) :
    d.readObject (count + 1) t = some (d.take s f, after) := by
  simp only [readObject, Json.readName_quote ht, readNamed_fieldText hnew, hend]

theorem readObject_comma {d : Draft} {f : Field} {after : Text} (hnew : d.has f = false)
    (ht : Text.skipSpace t = Json.quote f.name ++ ':' :: ' ' :: (s.fieldText f ++ rest))
    (hcomma : Text.skipSpace rest = ',' :: after) (count : Nat) :
    d.readObject (count + 1) t = (d.take s f).readObject count after := by
  simp only [readObject, Json.readName_quote ht, readNamed_fieldText hnew, hcomma]

theorem fieldLines_last (s : Settings) (f : Field) (rest : Text) :
    Text.skipSpace ('\n' :: (s.fieldLines [f] ++ rest)) =
      Json.quote f.name ++ ':' :: ' ' :: (s.fieldText f ++ '\n' :: rest) := by
  simp only [fieldLines, List.append_assoc, List.singleton_append]
  rfl

theorem fieldLines_cons (s : Settings) (f g : Field) (fs : List Field) (rest : Text) :
    Text.skipSpace ('\n' :: (s.fieldLines (f :: g :: fs) ++ rest)) =
      Json.quote f.name ++ ':' :: ' ' ::
        (s.fieldText f ++ ',' :: '\n' :: (s.fieldLines (g :: fs) ++ rest)) := by
  simp only [fieldLines, List.append_assoc]
  rfl

/-- Lines of fields that have not been read yet are all read, up to the closing brace. -/
theorem readObject_fieldLines {d : Draft} {f : Field} {fs : List Field} {count : Nat}
    (hnodup : (f :: fs).Nodup) (hnew : ∀ g ∈ f :: fs, d.has g = false)
    (hcount : (f :: fs).length ≤ count)
    (ht : Text.skipSpace t =
      Text.skipSpace ('\n' :: (s.fieldLines (f :: fs) ++ '\x7d' :: rest))) :
    d.readObject count t = some ((f :: fs).foldl (take s) d, rest) := by
  induction fs generalizing d f t count with
  | nil =>
    obtain ⟨count, rfl⟩ := Nat.exists_eq_add_of_le' hcount
    rw [fieldLines_last] at ht
    exact readObject_end (hnew f List.mem_cons_self) ht rfl count
  | cons g fs ih =>
    obtain ⟨count, rfl⟩ := Nat.exists_eq_add_of_le' (Nat.le_of_add_left_le hcount)
    rw [fieldLines_cons] at ht
    obtain ⟨hfirst, hrest⟩ := List.nodup_cons.1 hnodup
    -- taking one field leaves the others as unread as they were
    have hnew' : ∀ x ∈ g :: fs, (d.take s f).has x = false := by
      intro x hx
      have hne : x ≠ f := fun heq => hfirst (heq ▸ hx)
      rw [has_take, beq_false_of_ne hne, hnew x (List.mem_cons_of_mem f hx), Bool.false_or]
    rw [readObject_comma (hnew f List.mem_cons_self) ht rfl count]
    exact ih hrest hnew' (Nat.le_of_succ_le_succ hcount) rfl

end Draft

/-! ## Files -/

theorem length_le_fieldLines (s : Settings) (fs : List Field) :
    fs.length ≤ (s.fieldLines fs).length := by
  induction fs with
  | nil => exact Nat.zero_le _
  | cons f fs ih =>
    cases fs with
    | nil => simp [fieldLines]
    | cons g fs =>
      have hcomma : ",\n".toList.length = 2 := rfl
      simp only [fieldLines, List.length_append, List.length_cons, hcomma] at ih ⊢
      omega

/-- All fields of a file are read. -/
theorem readDraft_text (s : Settings) :
    readDraft s.text = some (Field.all.foldl (Draft.take s) {}, ['\n']) := by
  let lines : Text := Text.skipSpace ('\n' :: (s.fieldLines Field.all ++ ['\x7d', '\n']))
  have hobject : readDraft s.text = Draft.readObject {} lines.length lines := by
    rw [text, List.append_assoc]
    rfl
  -- the blanks that are skipped are no more than what stands below the fields
  have hindented : lines = (s.fieldLines Field.all ++ ['\x7d', '\n']).drop 2 := rfl
  have hcount : Field.all.length ≤ lines.length := by
    rw [hindented, List.length_drop, List.length_append]
    exact length_le_fieldLines s Field.all
  rw [hobject]
  exact Draft.readObject_fieldLines Field.nodup_all (by decide) hcount rfl

/-- The settings of the file that holds them. -/
theorem ofText?_text (s : Settings) : ofText? s.text = some s := by
  have hblank : Text.skipSpace ['\n'] = [] := rfl
  rw [ofText?, readDraft_text]
  simp only [hblank, if_true, Draft.settings_take_all]

end Settings

/-! ## Saving and loading -/

namespace Command

variable {p : Path} {w : World}

theorem run_saveSettings {s : Settings} {d : Disk} (h : w.disk.write p s.text = .ok d) :
    (saveSettings p s).run w = (.ok (), { w with disk := d }) := by
  rw [saveSettings, Job.run, h]
  rfl

theorem settingsOf_text (p : Path) (s : Settings) : settingsOf p (.ok s.text) = .ok s := by
  simp only [settingsOf, Settings.ofText?_text]

theorem run_loadSettings_of_read {t : Text} (h : w.disk.read p = .ok t) :
    (loadSettings p).run w = (Job.ofExcept (settingsOf p (.ok t))).run w := by
  rw [loadSettings, Job.run, Disk.has_of_read h, ← h]
  rfl

/-- Settings that have been saved are loaded again, whatever their strings hold. They are saved
wherever a file can be written at all. -/
theorem loadSettings_saveSettings (s : Settings) {t : Text} {d : Disk}
    (h : w.disk.write p t = .ok d) :
    ∃ w', (saveSettings p s).run w = (.ok (), w') ∧ w'.disk.read p = .ok s.text ∧
      settingsOf p (w'.disk.read p) = .ok s ∧ (loadSettings p).run w' = (.ok s, w') := by
  obtain ⟨d', hwrite⟩ := Disk.exists_write h s.text
  have hread : d'.read p = .ok s.text := Disk.read_write hwrite
  refine ⟨{ w with disk := d' }, run_saveSettings hwrite, hread, ?_, ?_⟩
  · show settingsOf p (d'.read p) = .ok s
    rw [hread, settingsOf_text]
  · rw [run_loadSettings_of_read hread, settingsOf_text]
    rfl

/-- A quote, a backslash, control characters with and without an escape of their own, and
characters beyond ASCII. -/
def manyEscapes : Settings where
  openMarker := "\"calc\\ \n\r\t"
  closeMarker := "\x00\x08\x0c\x1f\x7f"
  helper := "é√😀"
  undefined := ""
  blocks := .strip
  strictReferences := true
  strictMode := false

theorem loadSettings_saveSettings_escapes :
    let w : World := ⟨.ofFiles [], [], []⟩
    w.disk.write "stepwise.config.json" [] = .ok ⟨[(["stepwise.config.json"], [])], []⟩ ∧
      ∃ w', (saveSettings "stepwise.config.json" manyEscapes).run w = (.ok (), w') ∧
        w'.disk.read "stepwise.config.json" = .ok manyEscapes.text ∧
        settingsOf "stepwise.config.json" (w'.disk.read "stepwise.config.json") =
          .ok manyEscapes ∧
        (loadSettings "stepwise.config.json").run w' = (.ok manyEscapes, w') := by
  intro w
  have hwrite : w.disk.write "stepwise.config.json" [] =
      .ok ⟨[(["stepwise.config.json"], [])], []⟩ := rfl
  exact ⟨hwrite, loadSettings_saveSettings manyEscapes hwrite⟩

end Command

end CalcDoc
