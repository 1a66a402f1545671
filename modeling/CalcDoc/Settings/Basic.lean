/-!
# Settings

- `Settings`: the markers of code blocks, the name of the helper that asks for values, and how a
  document is rendered. Every setting has a default.
- `BlockDisplay`: what becomes of the code blocks.
-/

namespace CalcDoc

/-- What becomes of the code blocks when a document is rendered. -/
inductive BlockDisplay where
  /-- They stay in the text. -/
  | echo
  /-- They are removed before the text is rendered. -/
  | strip
deriving DecidableEq, Repr

/-- The settings of a session. -/
structure Settings where
  /-- A line that starts with this opens a code block. -/
  openMarker : String := "```calc"
  /-- A line in a code block that starts with this closes it. -/
  closeMarker : String := "```"
  /-- The name of the helper that asks for a value. -/
  helper : String := "_"
  /-- What is written for a name that no block has assigned yet. -/
  undefined : String := "???"
  blocks : BlockDisplay := .echo
  /-- A count of requests other than the references in the text is an error. -/
  strictReferences : Bool := false
  /-- A name that the data does not have is an error. -/
  strictMode : Bool := true
deriving DecidableEq, Repr

/-- The name of a display in a settings file. -/
def BlockDisplay.name : BlockDisplay → String
  | .echo => "echo"
  | .strip => "strip"

/-- The display with a name. -/
def BlockDisplay.ofName? : String → Option BlockDisplay
  | "echo" => some .echo
  | "strip" => some .strip
  | _ => none

/-- The settings by themselves, in the order of a settings file. -/
inductive Settings.Field where
  | openMarker | closeMarker | helper | undefined | blocks | strictReferences | strictMode
deriving DecidableEq, Repr

namespace Settings.Field

/-- All fields, in the order of a settings file. -/
def all : List Field :=
  [.openMarker, .closeMarker, .helper, .undefined, .blocks, .strictReferences, .strictMode]

/-- The name of a field in a settings file. -/
def name : Field → String
  | .openMarker => "open_marker"
  | .closeMarker => "close_marker"
  | .helper => "helper"
  | .undefined => "undefined"
  | .blocks => "blocks"
  | .strictReferences => "strict_references"
  | .strictMode => "strict_mode"

/-- The field with a name. -/
def ofName? (x : String) : Option Field :=
  all.find? fun f => f.name == x

end Settings.Field

end CalcDoc
