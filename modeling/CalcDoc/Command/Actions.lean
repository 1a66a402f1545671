import CalcDoc.Command.Job
import CalcDoc.Document.Demo
import CalcDoc.Json.Reader
import CalcDoc.Settings.File

/-!
# What the commands do

- `Command.settingsOf`: the settings in a file.
- `Command.job`: the job of a command.
- `Invocation.run`: a command in a world, with its exit code.
-/

namespace CalcDoc

namespace Command

/-! ## Messages -/

/-- Writes a heading. -/
def heading (s : String) : Job Unit :=
  .note ("\n" ++ s ++ "\n" ++ String.ofList (List.replicate s.utf8ByteSize '=') ++ "\n") (.done ())

/-- Writes that something went well. -/
def success (s : String) : Job Unit :=
  .note ("[OK] " ++ s ++ "\n") (.done ())

/-- Writes a warning. -/
def warning (s : String) : Job Unit :=
  .note ("[WARN] " ++ s ++ "\n") (.done ())

/-- Writes a fact with its name. -/
def fact (name value : String) : Job Unit :=
  .note ("  " ++ name ++ ": " ++ value ++ "\n") (.done ())

/-- Writes a line for the record, if so much is to be told. -/
def record (told : Bool) (line : String) : Job Unit :=
  if told then .note (line ++ "\n") (.done ()) else .done ()

/-! ## Files -/

/-- The settings in a file that has been read. -/
def settingsOf (p : Path) : Except Refusal Text → Except Error Settings
  | .error r => .error (.settingsUnreadable p r)
  | .ok t =>
    match Settings.ofText? t with
    | some s => .ok s
    | none => .error (.settingsMalformed p)

/-- Reads a settings file; without the file the settings are the default ones. -/
def loadSettings (p : Path) : Job Settings :=
  .look p fun there =>
    if there then .read p fun r => .ofExcept (settingsOf p r) else .done {}

/-- Writes a settings file. -/
def saveSettings (p : Path) (s : Settings) : Job Unit :=
  .write p s.text fun
    | .ok () => .done ()
    | .error r => .fail (.refused r)

/-- Reads a file of data; without one the data is an empty object. -/
def loadData : Option Path → Job Json
  | none => .done (.object [])
  | some p =>
    .read p fun
      | .error r => .fail (.dataUnreadable p r)
      | .ok t =>
        match Json.ofText? t with
        | some data => .done data
        | none => .fail (.dataMalformed p)

/-- Reads a template. -/
def loadTemplate (p : Path) : Job Text :=
  .read p fun
    | .ok t => .done t
    | .error r => .fail (.templateUnreadable p r)

/-! ## Rendering -/

/-- Writes what a rendered document tells about its session. -/
def recordSession (verbosity : Nat) (r : Session.Report) : Job Unit :=
  (record (!r.consistent) ("WARN value requests differ from references counted in the text; " ++
    "values may be misplaced expected=" ++ toString r.expected ++
    " actual=" ++ toString r.requests)).andThen fun () =>
  record (1 ≤ verbosity) ("INFO rendered template requests=" ++ toString r.requests ++
    " executed=" ++ toString r.executed ++ " pending=" ++ toString r.pending)

/-- Writes what the template of a rendered document has come to. -/
def recordTemplate (verbosity : Nat) (p : Path) (r : Session.Report) : Job Unit :=
  (record (1 ≤ verbosity) ("INFO session finished template=" ++ p ++
    " requests=" ++ toString r.requests ++ " blocks=" ++ toString r.total)).andThen fun () =>
  if r.pending = 0 then .done ()
  else
    warning (p ++ ": " ++ toString r.pending ++
      " code block(s) never ran; no reference follows them")

/-- Where the document of a template is written; none if it goes to the stream of documents. -/
def destination (options : RenderOptions) (template : Path) : Option Path :=
  match options.output, options.outDir with
  | some p, _ => some p
  | none, some folder => template.fileName?.map folder.join
  | none, none => none

/-- Writes the document of a template, and a message about it if `told` holds. -/
def deliver (told : Bool) (options : RenderOptions) (template : Path) (output : Text) : Job Unit :=
  match destination options template with
  | none => .print output (.done ())
  | some p =>
    .write p output fun
      | .error r => .fail (.unwritable p r)
      | .ok () => if told then success (template ++ " -> " ++ p) else .done ()

/-- Renders one template. -/
def renderOne (verbosity : Nat) (settings : Settings) (data : Json) (options : RenderOptions)
    (told : Bool) (p : Path) : Job Unit :=
  (loadTemplate p).andThen fun text =>
  match Document.render settings text data with
  | .error e => .fail (.notRendered p e)
  | .ok rendered =>
    (recordSession verbosity rendered.report).andThen fun () =>
    (recordTemplate verbosity p rendered.report).andThen fun () =>
    deliver told options p rendered.output

/-- Renders templates one after the other, up to the first that fails. -/
def renderEach (verbosity : Nat) (settings : Settings) (data : Json) (options : RenderOptions)
    (told : Bool) : List Path → Job Unit
  | [] => .done ()
  | p :: ps =>
    (renderOne verbosity settings data options told p).andThen fun () =>
    renderEach verbosity settings data options told ps

/-- The settings with those of the options in place. -/
def overrides (options : RenderOptions) (s : Settings) : Settings :=
  { s with
    blocks := if options.strip then .strip else s.blocks
    strictReferences := options.strict || s.strictReferences }

/-- Makes the folder of all documents, if there is one. -/
def makeOutDir (options : RenderOptions) : Job Unit :=
  match options.outDir with
  | none => .done ()
  | some p =>
    .makeFolders p fun
      | .ok () => .done ()
      | .error r => .fail (.refused r)

/-- Renders some templates. Several documents in a folder are reported in one line. -/
def renderAll (verbosity : Nat) (settingsPath : Path) (templates : List Path)
    (options : RenderOptions) : Job Unit :=
  if options.output.isSome ∧ 1 < templates.length then .fail .severalTemplates
  else
    let together := options.outDir.isSome && 1 < templates.length
    (loadSettings settingsPath).andThen fun settings =>
    (loadData options.data).andThen fun data =>
    (makeOutDir options).andThen fun () =>
    (renderEach verbosity (overrides options settings) data options (!together)
      templates).andThen fun () =>
    if together then success ("Rendered " ++ toString templates.length ++ " templates")
    else .done ()

/-! ## Checking -/

/-- Writes where a block stands. -/
def describeBlock (b : Block) : Job Unit :=
  fact ("block " ++ toString b.index)
    ("line " ++ toString b.fenceLine ++ ", runs after reference " ++ toString b.threshold ++
      ", " ++ toString b.lines.length ++ " line(s)")

/-- Writes where some blocks stand. -/
def describeBlocks : List Block → Job Unit
  | [] => .done ()
  | b :: bs => (describeBlock b).andThen fun () => describeBlocks bs

/-- The last block of a document, if no reference follows it. -/
def idleBlock? (s : Segmentation) : Option Block :=
  s.blocks.getLast?.filter fun b => b.threshold == s.references

/-- Warns of the last block, if no reference follows it. -/
def warnIdle (s : Segmentation) : Job Unit :=
  match idleBlock? s with
  | some b =>
    warning ("block " ++ toString b.index ++ " has no reference after it and will never run")
  | none => .done ()

/-- Checks a template without running its blocks. -/
def checkTemplate (settingsPath p : Path) : Job Unit :=
  (loadSettings settingsPath).andThen fun settings =>
  (loadTemplate p).andThen fun text =>
  (heading ("stepwise check: " ++ p)).andThen fun () =>
  match segment settings.markers text with
  | .error e => .fail (.fence e)
  | .ok s =>
    (describeBlocks s.blocks).andThen fun () =>
    (warnIdle s).andThen fun () =>
    let session := Session.ofSegmentation s settings
    match session.checkBlocks with
    | some f => .fail (.block f)
    | none =>
      success (toString session.pending.length ++ " code block(s) parse; " ++
        toString session.expected ++ " reference(s) expected")

/-! ## Demonstration and settings -/

/-- Renders the demonstration. Of the settings only the text for a name without a value
counts. -/
def renderDemo (verbosity : Nat) (settingsPath : Path) (echo : Bool) : Job Unit :=
  (loadSettings settingsPath).andThen fun loaded =>
  let settings : Settings :=
    { undefined := loaded.undefined, blocks := if echo then .echo else .strip }
  match Document.render settings Document.demo (.object []) with
  | .error e => .fail (.notRendered "demo" e)
  | .ok rendered =>
    let r := rendered.report
    (recordSession verbosity r).andThen fun () =>
    .print rendered.output
      ((fact "requests" (toString r.requests)).andThen fun () =>
        fact "blocks executed" (toString r.executed ++ "/" ++ toString r.total))

/-- Writes how the program is used after its settings have been written. -/
def suggestNext (p : Path) : Job Unit :=
  let settings : Settings := {}
  (success ("Wrote " ++ p)).andThen fun () =>
  (fact "open marker" settings.openMarker).andThen fun () =>
  (fact "helper" ("\x7b\x7b" ++ settings.helper ++ " \"name\"\x7d\x7d")).andThen fun () =>
  .note ("\n  Next steps:\n    stepwise demo\n    stepwise check <TEMPLATE>\n" ++
    "    stepwise render <TEMPLATE> --strip\n\n") (.done ())

/-- Writes a file with the default settings. -/
def initSettings (p : Path) (force : Bool) : Job Unit :=
  (heading "stepwise init").andThen fun () =>
  .look p fun there =>
    if there && !force then .fail .noTerminal
    else (saveSettings p {}).andThen fun () => suggestNext p

/-- The job of a command. -/
def job (verbosity : Nat) (settingsPath : Path) : Command → Job Unit
  | .render templates options => renderAll verbosity settingsPath templates options
  | .check template => checkTemplate settingsPath template
  | .demo echo => renderDemo verbosity settingsPath echo
  | .init force => initSettings settingsPath force

end Command

/-- The job of an invocation. -/
def Invocation.job (i : Invocation) : Job Unit :=
  i.command.job i.verbosity i.settings

/-- What is left when a command has ended: the exit code and the world. -/
structure Outcome where
  exitCode : Nat
  world : World

/-- Runs a command on a disk. An error is written to the stream of messages. -/
def Invocation.run (i : Invocation) (d : Disk) : Outcome :=
  match i.job.run ⟨d, [], []⟩ with
  | (.ok (), w) => ⟨0, w⟩
  | (.error e, w) => ⟨1, { w with messages := w.messages ++ e.report.toList }⟩

end CalcDoc
