import CalcDoc.Document
import CalcDoc.Files.Disk

/-!
# Commands

- `Command`: what the program is told to do.
- `Command.Error`: why a command fails, with the text of the error and its causes.
-/

namespace CalcDoc

/-- How and where documents are rendered. -/
structure RenderOptions where
  /-- The file of the data. -/
  data : Option Path
  /-- The file of the one document. -/
  output : Option Path
  /-- The folder of all documents. -/
  outDir : Option Path
  /-- Whether the code blocks are removed, whatever the settings. -/
  strip : Bool
  /-- Whether a mismatch of the references is an error, whatever the settings. -/
  strict : Bool
deriving DecidableEq, Repr

/-- What the program is told to do. -/
inductive Command where
  | render (templates : List Path) (options : RenderOptions)
  | check (template : Path)
  /-- Render the demonstration, with its code blocks or without them. -/
  | demo (echo : Bool)
  /-- Write a settings file, over another one if `force` holds. -/
  | init (force : Bool)
deriving DecidableEq, Repr

/-- A command and what goes with every command. -/
structure Invocation where
  command : Command
  /-- The settings file; it need not exist. -/
  settings : Path
  /-- How much is told about what is done. -/
  verbosity : Nat
deriving DecidableEq, Repr

namespace Command

/-- Why a command fails. -/
inductive Error where
  | settingsUnreadable (path : Path) (cause : Refusal)
  | settingsMalformed (path : Path)
  | dataUnreadable (path : Path) (cause : Refusal)
  | dataMalformed (path : Path)
  | templateUnreadable (path : Path) (cause : Refusal)
  | notRendered (path : Path) (cause : RenderError)
  | unwritable (path : Path) (cause : Refusal)
  /-- One file was named for several documents. -/
  | severalTemplates
  /-- A settings file is there already, and there is nobody to ask. -/
  | noTerminal
  | refused (r : Refusal)
  | fence (e : FenceError)
  | block (f : BlockFailure)

/-- The text of the error, without its causes. -/
def Error.message : Error → String
  | .settingsUnreadable path _ => "config file not found at " ++ path
  | .settingsMalformed path => "failed to parse config at " ++ path
  | .dataUnreadable path _ => "failed to read data file " ++ path
  | .dataMalformed path => "failed to parse template data at " ++ path
  | .templateUnreadable path _ => "failed to read template " ++ path
  | .notRendered path _ => "failed to render " ++ path
  | .unwritable path _ => "failed to write " ++ path
  | .severalTemplates => "--output takes a single template; use --out-dir for several"
  | .noTerminal => "IO error: not a terminal"
  | .refused r => r.message
  | .fence e => e.message
  | .block f => f.message

/-- The texts of a block failure and its cause. -/
def failureTexts (f : BlockFailure) : List String :=
  [f.message, f.cause.message]

/-- The causes of an error, from the outside in. -/
def Error.causes : Error → List String
  | .settingsUnreadable _ r => [r.message]
  | .dataUnreadable _ r => [r.message]
  | .templateUnreadable _ r => [r.message]
  | .unwritable _ r => [r.message]
  | .notRendered _ (.request (.block f)) => failureTexts f
  | .notRendered _ e => [e.message]
  | .noTerminal => ["not a terminal"]
  | .block f => [f.cause.message]
  | .settingsMalformed _ | .dataMalformed _ | .severalTemplates | .refused _ | .fence _ => []

/-- A text with blanks in front of all lines but the first. -/
def indentRest (blanks : String) (s : String) : String :=
  "\n".intercalate <|
    match (Text.lines s.toList).map String.ofList with
    | [] => []
    | line :: rest => line :: rest.map (blanks ++ ·)

/-- The lines of several causes, numbered from `n` on. -/
def numberedCauses (n : Nat) : List String → List String
  | [] => []
  | c :: cs =>
    (String.ofList (List.replicate (5 - (toString n).length) ' ') ++ toString n ++ ": " ++
      indentRest "       " c) :: numberedCauses (n + 1) cs

/-- What is written of an error: its text, and its causes, which are numbered if there are
several. -/
def Error.report (e : Error) : String :=
  "\n".intercalate <|
    ("Error: " ++ e.message) ::
      (match e.causes with
        | [] => []
        | [c] => ["", "Caused by:", "    " ++ indentRest "    " c]
        | cs => "" :: "Caused by:" :: numberedCauses 0 cs) ++
      [""]

end Command

end CalcDoc
