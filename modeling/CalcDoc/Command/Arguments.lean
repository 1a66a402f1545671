import CalcDoc.Command.Basic

/-!
# Arguments

The arguments name a command and its options. Options have long names behind two dashes, and some
have a letter behind one dash; letters without a value may share one dash. The value of an option
follows it, as the next argument or behind an equals sign. After two dashes alone there are no more
options.

- `Reply`: what the arguments ask for.
- `readArguments`: what a list of arguments asks for.
-/

namespace CalcDoc.Command

/-- What the arguments ask for. -/
inductive Reply where
  | run (i : Invocation)
  /-- The version of the program, or of one of its commands. -/
  | version (name : String)
  | help
  /-- The arguments make no sense. -/
  | misuse
deriving DecidableEq, Repr

/-- The commands by themselves. -/
inductive Kind where
  | render | check | demo | init
deriving DecidableEq, Repr

/-- The name of a command. -/
def Kind.name : Kind → String
  | .render => "render"
  | .check => "check"
  | .demo => "demo"
  | .init => "init"

/-- The most arguments of a command that are no options; none if it takes any count of them. -/
def Kind.mostPlain? : Kind → Option Nat
  | .render => none
  | .check => some 1
  | .demo | .init => some 0

/-- The command with a name. -/
def Kind.ofName? (x : String) : Option Kind :=
  [Kind.render, .check, .demo, .init].find? fun k => k.name == x

/-- The options with a value. -/
inductive ValueOption where
  | settings | data | output | outDir
deriving DecidableEq, Repr

/-- The options without a value that may be given once. -/
inductive Switch where
  | strip | strict | echo | force
deriving DecidableEq, Repr

/-- An option. -/
inductive Flag where
  | value (o : ValueOption)
  | switch (s : Switch)
  | verbose
  | help
  | version
deriving DecidableEq, Repr

/-- The option with a long name that is known before any command (`none`) or to a command. -/
def Flag.ofName? (k : Option Kind) (x : String) : Option Flag :=
  match k, x with
  | _, "config" => some (.value .settings)
  | _, "verbose" => some .verbose
  | _, "help" => some .help
  | _, "version" => some .version
  | some .render, "data" => some (.value .data)
  | some .render, "output" => some (.value .output)
  | some .render, "out-dir" => some (.value .outDir)
  | some .render, "strip" => some (.switch .strip)
  | some .render, "strict" => some (.switch .strict)
  | some .demo, "echo" => some (.switch .echo)
  | some .init, "force" => some (.switch .force)
  | _, _ => none

/-- The option with a letter. -/
def Flag.ofLetter? (k : Option Kind) (c : Char) : Option Flag :=
  match k, c with
  | _, 'v' => some .verbose
  | _, 'h' => some .help
  | _, 'V' => some .version
  | some .render, 'd' => some (.value .data)
  | some .render, 'o' => some (.value .output)
  | _, _ => none

/-- What has been given. -/
structure Given where
  values : List (ValueOption × String) := []
  switches : List Switch := []
  verbosity : Nat := 0
  /-- The arguments that are no options, the last one first. -/
  plainBack : List String := []

/-- The value of an option. -/
def Given.value? (g : Given) (o : ValueOption) : Option String :=
  g.values.lookup o

/-- Takes the value of an option, which must not be empty or given before. -/
def Given.takeValue (g : Given) (o : ValueOption) (v : String) : Option Given :=
  if v = "" ∨ (g.value? o).isSome then none else some { g with values := (o, v) :: g.values }

/-- Takes an argument that is no option, which must not be empty, if the command takes one more of
them. -/
def Given.takePlain (g : Given) (k : Kind) (x : String) : Option Given :=
  if x = "" ∨ k.mostPlain?.any (· ≤ g.plainBack.length) then none
  else some { g with plainBack := x :: g.plainBack }

/-- What an argument leads to. -/
inductive Step where
  | next (g : Given)
  /-- The next argument is the value of an option. -/
  | wants (o : ValueOption) (g : Given)
  | stop (r : Reply)

/-- A step that may make no sense. -/
def Step.ofOption : Option Given → Step
  | some g => .next g
  | none => .stop .misuse

/-- The name under which the version of a command is told. -/
def versionName : Option Kind → String
  | none => "stepwise"
  | some k => "stepwise-" ++ k.name

/-- Takes an option without a value. -/
def Given.takeFlag (g : Given) (k : Option Kind) : Flag → Step
  | .value o => .wants o g
  | .switch s =>
    if g.switches.contains s then .stop .misuse
    else .next { g with switches := s :: g.switches }
  | .verbose => .next { g with verbosity := g.verbosity + 1 }
  | .help => .stop .help
  | .version => .stop (.version (versionName k))

/-- Takes an option behind two dashes. -/
def Given.takeLong (g : Given) (k : Option Kind) (t : Text) : Step :=
  let x := String.ofList (t.takeWhile (· != '='))
  match Flag.ofName? k x, t.dropWhile (· != '=') with
  | none, _ => .stop .misuse
  | some f, [] => g.takeFlag k f
  | some (.value o), _ :: v => .ofOption (g.takeValue o (String.ofList v))
  | some _, _ :: _ => .stop .misuse

/-- Takes the letters behind one dash. All after the letter of an option with a value is the
value. -/
def Given.takeLetters (g : Given) (k : Option Kind) : Text → Step
  | [] => .next g
  | c :: t =>
    match Flag.ofLetter? k c, t with
    | none, _ => .stop .misuse
    | some (.value o), [] => .wants o g
    | some (.value o), '=' :: v => .ofOption (g.takeValue o (String.ofList v))
    | some (.value o), v => .ofOption (g.takeValue o (String.ofList v))
    | some f, t =>
      match g.takeFlag k f with
      | .next g => g.takeLetters k t
      | step => step

/-- Whether an argument is an option. A dash alone is none. -/
def isFlag (x : String) : Bool :=
  match x.toList with
  | '-' :: _ :: _ => true
  | _ => false

/-- Takes an argument that is an option. -/
def Given.takeOption (g : Given) (k : Option Kind) (x : String) : Step :=
  match x.toList with
  | '-' :: '-' :: t => g.takeLong k t
  | '-' :: t => g.takeLetters k t
  | _ => .stop .misuse

/-- Takes arguments that are no options. -/
def Given.takeAll (g : Given) (k : Kind) : List String → Option Given
  | [] => some g
  | x :: xs => (g.takePlain k x).bind fun g => g.takeAll k xs

/-- What is given to a command. -/
def readGiven (k : Kind) (g : Given) : List String → Except Reply Given
  | [] => .ok g
  | "--" :: xs =>
    match g.takeAll k xs with
    | some g => .ok g
    | none => .error .misuse
  | x :: xs =>
    if isFlag x then
      match g.takeOption (some k) x with
      | .next g => readGiven k g xs
      | .stop r => .error r
      | .wants o g =>
        match xs with
        | [] => .error .misuse
        | v :: xs =>
          if isFlag v then .error .misuse
          else
            match g.takeValue o v with
            | some g => readGiven k g xs
            | none => .error .misuse
    else
      match g.takePlain k x with
      | some g => readGiven k g xs
      | none => .error .misuse

/-- The command that was given, if nothing is missing and nothing contradicts. -/
def Kind.command? (k : Kind) (g : Given) : Option Command :=
  match k, g.plainBack.reverse with
  | .render, [] => none
  | .render, templates =>
    if (g.value? .output).isSome && (g.value? .outDir).isSome then none
    else
      some (.render templates
        { data := g.value? .data
          output := g.value? .output
          outDir := g.value? .outDir
          strip := g.switches.contains .strip
          strict := g.switches.contains .strict })
  | .check, [template] => some (.check template)
  | .demo, [] => some (.demo (g.switches.contains .echo))
  | .init, [] => some (.init (g.switches.contains .force))
  | _, _ => none

/-- What is asked for by a command, after the options before it, which make no sense if there is
no `before`. What is given to the command itself counts for more. -/
def readCommand (before : Option Given) (k : Kind) (xs : List String) : Reply :=
  match readGiven k {} xs with
  | .error r => r
  | .ok g =>
    match before, k.command? g with
    | some before, some command =>
      let settings := (g.value? .settings).or (before.value? .settings)
      .run ⟨command, settings.getD "stepwise.config.json",
        if g.verbosity = 0 then before.verbosity else g.verbosity⟩
    | _, _ => .misuse

/-- What is asked for by the word `help` and the arguments after it. -/
def readHelp : List String → Reply
  | [] => .help
  | [x] => if x = "help" ∨ (Kind.ofName? x).isSome then .help else .misuse
  | _ => .misuse

/-- What is asked for by the word `x`, after the options before it. -/
def readWord (before : Option Given) (x : String) (xs : List String) : Reply :=
  if x = "help" then readHelp xs
  else
    match Kind.ofName? x with
    | some k => readCommand before k xs
    | none => .misuse

/-- What some arguments ask for, after other options. Whether a value makes sense that stands right
before a command is seen only after the command. -/
def readFrom (g : Given) : List String → Reply
  | [] => .misuse
  | x :: xs =>
    if x = "--" then .misuse
    else if isFlag x then
      match g.takeOption none x with
      | .next g => readFrom g xs
      | .stop r => r
      | .wants o g =>
        match xs with
        | [] => .misuse
        | v :: xs =>
          if isFlag v then .misuse
          else
            match g.takeValue o v, xs with
            | some g, xs => readFrom g xs
            | none, x :: xs => if isFlag x then .misuse else readWord none x xs
            | none, [] => .misuse
    else readWord (some g) x xs

/-- What a list of arguments asks for. -/
def readArguments (xs : List String) : Reply :=
  readFrom {} xs

/-- The text for a version. -/
def versionText (name : String) : String :=
  name ++ " 0.1.0\n"

/-- How the program is used. -/
def helpText : String :=
  "Render templates whose values change between code blocks\n\n" ++
  "Usage: stepwise [OPTIONS] <COMMAND>\n\n" ++
  "Commands:\n" ++
  "  render <TEMPLATES>...  Render one or more templates\n" ++
  "  check <TEMPLATE>       Segment a template and validate its code blocks\n" ++
  "  demo                   Render the built-in demo template\n" ++
  "  init                   Write a default stepwise.config.json\n\n" ++
  "Options:\n" ++
  "      --config <CONFIG>  Path to the settings file\n" ++
  "  -v, --verbose...       Verbosity level\n" ++
  "  -h, --help             Print help\n" ++
  "  -V, --version          Print version\n\n" ++
  "Options of render:\n" ++
  "  -d, --data <DATA>        JSON file of the data\n" ++
  "  -o, --output <OUTPUT>    Write the rendered document here\n" ++
  "      --out-dir <OUT_DIR>  Write each rendered document into this directory\n" ++
  "      --strip              Remove code blocks from the output\n" ++
  "      --strict             Fail if the number of value requests differs\n\n" ++
  "Option of demo:\n" ++
  "      --echo  Keep the code blocks in the output\n\n" ++
  "Option of init:\n" ++
  "      --force  Overwrite an existing config\n"

end CalcDoc.Command
