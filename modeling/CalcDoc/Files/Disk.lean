import CalcDoc.Files.Path

/-!
# Disks

A disk is a tree of folders with files of text in it, seen from the working folder.

- `Place`: where a file or folder lies; paths that lead to one place differ only in their text.
- `Disk.ofFiles`: the disk with some files.
- `Disk.read`, `Disk.write`: the content of a file, and the disk with another content.
- `Disk.makeFolders`: the disk with a folder and those around it.
- `Refusal`: why the disk cannot do so.
- `Disk.content?_put`: a file that is put somewhere changes no other.
-/

namespace CalcDoc

/-- Why a file cannot be read or written. -/
inductive Refusal where
  | notFound
  | fileExists
  | notAFolder
  | isAFolder
  /-- The bytes of a file are no text. -/
  | notText
  /-- Any other reason, in the words of the operating system. -/
  | other (message : String)
deriving DecidableEq, Repr

/-- The text of a refusal. -/
def Refusal.message : Refusal → String
  | .notFound => "No such file or directory (os error 2)"
  | .fileExists => "File exists (os error 17)"
  | .notAFolder => "Not a directory (os error 20)"
  | .isAFolder => "Is a directory (os error 21)"
  | .notText => "stream did not contain valid UTF-8"
  | .other message => message

/-- Where a file or folder lies: the names that lead there from the working folder, the last one
first. Places above the working folder lead through `..`, and those of the whole disk through
`/`. -/
abbrev Place := List String

/-- What lies at a place. -/
inductive Entry where
  | file (t : Text)
  | folder

/-- A disk. -/
structure Disk where
  files : List (Place × Text)
  /-- The folders, but for the working folder and those above it. -/
  folders : List Place

namespace Disk

/-- The content of the file at a place. -/
def content? (d : Disk) (p : Place) : Option Text :=
  d.files.lookup p

/-- The places of the folders around a place. -/
def placesAbove : Place → List Place
  | [] => []
  | _ :: p => p :: placesAbove p

/-- The disk with some files and the folders around them. -/
def ofFiles (files : List (Path × Text)) : Disk where
  files := files.map fun (p, t) => (p.steps, t)
  folders := files.flatMap fun (p, _) => placesAbove p.steps

/-- Whether the working folder lies at a place or below it. -/
def isAbove (p : Place) : Bool :=
  p.all (· == "..") || p == ["/"]

/-- What lies at a place. -/
def entry? (d : Disk) (p : Place) : Option Entry :=
  match d.content? p with
  | some t => some (.file t)
  | none => if isAbove p || d.folders.contains p then some .folder else none

/-- The place that a part of a path leads to from a folder. -/
def step (folder : Place) (x : String) : Place :=
  if x = "" ∨ x = "." then folder
  else if x = ".." then
    match folder with
    | ["/"] => ["/"]
    | y :: rest => if y = ".." then ".." :: folder else rest
    | [] => [".."]
  else x :: folder

/-- The place that some parts of a path lead to. All but the last have to lead through folders. -/
def walk (d : Disk) (p : Place) : List String → Except Refusal Place
  | [] => .ok p
  | x :: xs =>
    match d.entry? p with
    | none => .error .notFound
    | some (.file _) => .error .notAFolder
    | some .folder => d.walk (step p x) xs

/-- Where a path begins. -/
def origin (p : Path) : Place :=
  if p.isAbsolute then ["/"] else []

/-- The place that a path leads to, where nothing need be. -/
def locate (d : Disk) (p : Path) : Except Refusal Place :=
  d.walk (origin p) p.parts

/-- What a path leads to. -/
def find (d : Disk) (p : Path) : Except Refusal Entry :=
  match d.locate p with
  | .error e => .error e
  | .ok place =>
    match d.entry? place with
    | some e => .ok e
    | none => .error .notFound

/-- Whether a path leads to anything. -/
def has (d : Disk) (p : Path) : Bool :=
  match d.find p with
  | .ok _ => true
  | .error _ => false

/-- Whether a path leads to a folder. -/
def hasFolder (d : Disk) (p : Path) : Bool :=
  match d.find p with
  | .ok .folder => true
  | _ => false

/-- The content of a file. -/
def read (d : Disk) (p : Path) : Except Refusal Text :=
  match d.find p with
  | .ok (.file t) => .ok t
  | .ok .folder => .error .isAFolder
  | .error e => .error e

/-- The disk with a file at a place. -/
def put (d : Disk) (p : Place) (t : Text) : Disk :=
  { d with files := (p, t) :: d.files.filter fun f => f.1 != p }

/-- The path without slashes at its end. -/
def withoutSlashes (p : Path) : Path :=
  String.ofList (Text.dropEndWhile (· == '/') p.toList)

/-- The place where a path would have a file written. A path that ends with a slash is one of a
folder. -/
def target (d : Disk) (p : Path) : Except Refusal Place :=
  match d.locate (withoutSlashes p) with
  | .error e => .error e
  | .ok place => if p.toList.getLast? = some '/' then .error .isAFolder else .ok place

/-- The disk after a file was written, in place of any other content of it. -/
def write (d : Disk) (p : Path) (t : Text) : Except Refusal Disk :=
  match d.target p with
  | .error e => .error e
  | .ok place =>
    match d.entry? place with
    | some .folder => .error .isAFolder
    | _ => .ok (d.put place t)

/-- The disk with one more folder, where nothing may be yet. -/
def makeFolder (d : Disk) (p : Path) : Except Refusal Disk :=
  match d.locate (withoutSlashes p) with
  | .error e => .error e
  | .ok place =>
    match d.entry? place with
    | some _ => .error .fileExists
    | none => .ok { d with folders := place :: d.folders }

/-- Tries to make a folder. That it is there already is no refusal. -/
def ensureFolder (d : Disk) (p : Path) : Except Refusal Disk :=
  match d.makeFolder p with
  | .ok d => .ok d
  | .error e => if d.hasFolder p then .ok d else .error e

/-- Makes the first of some folders, of which each lies in the next, and the others if need be. -/
def makeNested (d : Disk) : List Path → Except Refusal Disk
  | [] => .ok d
  | p :: around =>
    match d.ensureFolder p with
    | .ok d => .ok d
    | .error .notFound =>
      match d.makeNested around with
      | .ok d => d.ensureFolder p
      | .error e => .error e
    | .error e => .error e

/-- The disk with a folder and those around it. -/
def makeFolders (d : Disk) (p : Path) : Except Refusal Disk :=
  d.makeNested p.ancestors

theorem content?_put (d : Disk) (p q : Place) (t : Text) :
    (d.put p t).content? q = if q = p then some t else d.content? q := by
  by_cases h : q = p
  · subst h
    simp [content?, put]
  · have hb : (q == p) = false := by simpa using h
    simp only [content?, put, List.lookup_cons, hb, h, if_false]
    induction d.files with
    | nil => rfl
    | cons f fs ih =>
      obtain ⟨r, u⟩ := f
      by_cases hr : r = p
      · subst hr
        simpa [List.lookup_cons, hb] using ih
      · simp [hr, List.lookup_cons, ih]

end Disk

end CalcDoc
