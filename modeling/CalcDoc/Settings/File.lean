import CalcDoc.Json.Reader
import CalcDoc.Settings.Basic

/-!
# Settings files

A settings file is a JSON object with any of the settings, or a JSON array with the first of them
in order. Fields of other names are skipped, whatever their values.

- `Settings.text`: the file that holds some settings.
- `Settings.ofText?`: the settings of a file.
-/

namespace CalcDoc.Settings

/-! ## Writing -/

/-- The JSON text of a field. -/
def fieldText (s : Settings) : Field → Text
  | .openMarker => Json.quote s.openMarker
  | .closeMarker => Json.quote s.closeMarker
  | .helper => Json.quote s.helper
  | .undefined => Json.quote s.undefined
  | .blocks => Json.quote s.blocks.name
  | .strictReferences => (if s.strictReferences then "true" else "false").toList
  | .strictMode => (if s.strictMode then "true" else "false").toList

/-- Some fields, one on a line, with commas after all but the last. -/
def fieldLines (s : Settings) : List Field → Text
  | [] => []
  | [f] => "  ".toList ++ Json.quote f.name ++ ": ".toList ++ s.fieldText f ++ ['\n']
  | f :: g :: fs =>
    "  ".toList ++ Json.quote f.name ++ ": ".toList ++ s.fieldText f ++ ",\n".toList ++
      fieldLines s (g :: fs)

/-- The file that holds the settings. -/
def text (s : Settings) : Text :=
  ['\x7b', '\n'] ++ s.fieldLines Field.all ++ ['\x7d', '\n']

/-! ## Reading -/

/-- Some settings that have been read, each at most once. -/
structure Draft where
  openMarker : Option String := none
  closeMarker : Option String := none
  helper : Option String := none
  undefined : Option String := none
  blocks : Option BlockDisplay := none
  strictReferences : Option Bool := none
  strictMode : Option Bool := none

/-- Whether a field has been read. -/
def Draft.has (d : Draft) : Field → Bool
  | .openMarker => d.openMarker.isSome
  | .closeMarker => d.closeMarker.isSome
  | .helper => d.helper.isSome
  | .undefined => d.undefined.isSome
  | .blocks => d.blocks.isSome
  | .strictReferences => d.strictReferences.isSome
  | .strictMode => d.strictMode.isSome

/-- The settings, with the defaults for those that have not been read. -/
def Draft.settings (d : Draft) : Settings :=
  let default : Settings := {}
  { openMarker := d.openMarker.getD default.openMarker
    closeMarker := d.closeMarker.getD default.closeMarker
    helper := d.helper.getD default.helper
    undefined := d.undefined.getD default.undefined
    blocks := d.blocks.getD default.blocks
    strictReferences := d.strictReferences.getD default.strictReferences
    strictMode := d.strictMode.getD default.strictMode }

/-- A truth value, and the text after it. -/
def readBool (t : Text) : Option (Bool × Text) :=
  match Text.skipSpace t with
  | 't' :: 'r' :: 'u' :: 'e' :: t => some (true, t)
  | 'f' :: 'a' :: 'l' :: 's' :: 'e' :: t => some (false, t)
  | _ => none

/-- The name of a display, and the text after it. -/
def readDisplayName (t : Text) : Option (BlockDisplay × Text) :=
  match Json.readString true t with
  | some (x, t) => (BlockDisplay.ofName? x).map fun b => (b, t)
  | none => none

/-- A display, and the text after it. It may also stand as the name of the one field of an
object, whose value is null. -/
def readDisplay (t : Text) : Option (BlockDisplay × Text) :=
  match Text.skipSpace t with
  | '{' :: u =>
    match readDisplayName u with
    | none => none
    | some (b, u) =>
      match Text.skipSpace u with
      | ':' :: u =>
        match Text.skipSpace u with
        | 'n' :: 'u' :: 'l' :: 'l' :: u =>
          match Text.skipSpace u with
          | '}' :: u => some (b, u)
          | _ => none
        | _ => none
      | _ => none
  | u => readDisplayName u

/-- The value of a field, and the text after it. -/
def Draft.readField (d : Draft) (f : Field) (t : Text) : Option (Draft × Text) :=
  match f with
  | .openMarker => (Json.readString true t).map fun (x, t) => ({ d with openMarker := some x }, t)
  | .closeMarker =>
    (Json.readString true t).map fun (x, t) => ({ d with closeMarker := some x }, t)
  | .helper => (Json.readString true t).map fun (x, t) => ({ d with helper := some x }, t)
  | .undefined => (Json.readString true t).map fun (x, t) => ({ d with undefined := some x }, t)
  | .blocks => (readDisplay t).map fun (x, t) => ({ d with blocks := some x }, t)
  | .strictReferences =>
    (readBool t).map fun (x, t) => ({ d with strictReferences := some x }, t)
  | .strictMode => (readBool t).map fun (x, t) => ({ d with strictMode := some x }, t)

/-- The value of the field with a name. A field must not come twice; other names are skipped. -/
def Draft.readNamed (d : Draft) (x : String) (t : Text) : Option (Draft × Text) :=
  match Field.ofName? x with
  | none => (Json.skipValue t).map fun t => (d, t)
  | some f => if d.has f then none else d.readField f t

/-- The fields of an object after its opening brace, if there are any; at most `count`. -/
def Draft.readObject (d : Draft) : (count : Nat) → Text → Option (Draft × Text)
  | 0, _ => none
  | count + 1, t =>
    match Json.readName true t with
    | none => none
    | some (x, t) =>
      match d.readNamed x t with
      | none => none
      | some (d, t) =>
        match Text.skipSpace t with
        | '}' :: t => some (d, t)
        | ',' :: t => d.readObject count t
        | _ => none

/-- The items of an array after its opening bracket, if there are any: values of the given
fields. -/
def Draft.readArray (d : Draft) : List Field → Text → Option (Draft × Text)
  | [], _ => none
  | f :: fs, t =>
    match d.readField f t with
    | none => none
    | some (d, t) =>
      match Text.skipSpace t with
      | ']' :: t => some (d, t)
      | ',' :: t => d.readArray fs t
      | _ => none

/-- The settings at the beginning of a text, and the text after them. -/
def readDraft (t : Text) : Option (Draft × Text) :=
  match Text.skipSpace t with
  | '{' :: t =>
    match Text.skipSpace t with
    | '}' :: t => some ({}, t)
    | t => Draft.readObject {} t.length t
  | '[' :: t =>
    match Text.skipSpace t with
    | ']' :: t => some ({}, t)
    | t => Draft.readArray {} Field.all t
  | _ => none

/-- The settings of a file, if it is well formed. -/
def ofText? (t : Text) : Option Settings :=
  match readDraft t with
  | some (d, rest) => if Text.skipSpace rest = [] then some d.settings else none
  | none => none

end CalcDoc.Settings
