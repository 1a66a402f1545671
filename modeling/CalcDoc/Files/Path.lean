import CalcDoc.Text.Lines

/-!
# File paths

A path is names with slashes between them, from the working folder or, if it begins with a slash,
from the top.

- `Path.parts`: the names of a path and their order.
- `Path.fileName?`: the name of the file that a path leads to.
- `Path.join`: the path of a file in a folder.
- `Path.ancestors`: a path and the paths of the folders around it, from the inside out.
-/

namespace CalcDoc

/-- The text of a path. -/
abbrev Path := String

namespace Path

/-- The texts between the slashes of a path. -/
def parts (p : Path) : List String :=
  (Text.split '/' p.toList).map String.ofList

/-- Whether the path begins at the top. -/
def isAbsolute (p : Path) : Bool :=
  p.toList.head? == some '/'

/-- The path of a file with a name in a folder. -/
def join (folder : Path) (name : String) : Path :=
  if folder = "" ∨ folder.toList.getLast? = some '/' then folder ++ name
  else folder ++ "/" ++ name

/-- The parts that lead somewhere, the last one first: no empty ones and no single dots. -/
def steps (p : Path) : List String :=
  (p.parts.filter fun x => x ≠ "" ∧ x ≠ ".").reverse

/-- The name of the file that the path leads to; none if it ends by leading up. -/
def fileName? (p : Path) : Option String :=
  match p.steps with
  | x :: _ => if x = ".." then none else some x
  | [] => none

/-- The path that begins like `start` and leads on by some steps, the last one first. -/
def ofSteps (start : String) : List String → Path
  | [] => start
  | [x] => if start = "." then "./" ++ x else start ++ x
  | x :: y :: xs => ofSteps start (y :: xs) ++ "/" ++ x

/-- What the path begins with before its steps. -/
def start (p : Path) : String :=
  if p.isAbsolute then "/"
  else if p.parts.head? = some "." then "."
  else ""

/-- The paths of the folders that some steps lead through. -/
def foldersAbove (start : String) : List String → List Path
  | [] => []
  | _ :: xs => ofSteps start xs :: foldersAbove start xs

/-- A path and the paths of the folders around it, from the inside out. The working folder is not
among them. -/
def ancestors (p : Path) : List Path :=
  (p :: foldersAbove p.start p.steps).filter (· ≠ "")

end Path

end CalcDoc
