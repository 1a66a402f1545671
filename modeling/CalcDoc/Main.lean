import CalcDoc.Command.Actions
import CalcDoc.Command.Arguments

/-!
# The program

Reads the arguments, performs the job that they ask for on the files of the system, and writes to
the standard streams.
-/

namespace CalcDoc.Program

/-- The refusal that an error of the system stands for. -/
def refusalOf : IO.Error → Refusal
  | .noFileOrDirectory .. => .notFound
  | .alreadyExists .. => .fileExists
  | .inappropriateType _ code _ => if code = 20 then .notAFolder else .isAFolder
  | .userError _ => .notText
  | e => .other e.toString

/-- The result of an action that may be refused. -/
def attempt {α : Type} (act : IO α) : IO (Except Refusal α) := do
  try
    return .ok (← act)
  catch e =>
    return .error (refusalOf e)

/-- Whether there is anything at a path. -/
def isThere (p : Path) : IO Bool := do
  match ← attempt (IO.FS.readFile p) with
  | .error .notFound | .error .notAFolder => return false
  | _ => return true

/-- Performs a job. -/
def perform {α : Type} : Job α → IO (Except Command.Error α)
  | .done a => return .ok a
  | .fail e => return .error e
  | .look p next => do perform (next (← isThere p))
  | .read p next => do
    let r ← attempt (IO.FS.readFile p)
    perform (next (r.map String.toList))
  | .write p t next => do perform (next (← attempt (IO.FS.writeFile p (String.ofList t))))
  | .makeFolders p next => do perform (next (← attempt (IO.FS.createDirAll p)))
  | .print t next => do
    IO.print (String.ofList t)
    perform next
  | .note message next => do
    IO.eprint message
    perform next

end CalcDoc.Program

open CalcDoc in
/-- The program. -/
def main (args : List String) : IO UInt32 := do
  match Command.readArguments args with
  | .misuse =>
    IO.eprint Command.helpText
    return 2
  | .help =>
    IO.print Command.helpText
    return 0
  | .version name =>
    IO.print (Command.versionText name)
    return 0
  | .run i =>
    match ← Program.perform i.job with
    | .ok () => return 0
    | .error e =>
      IO.eprint e.report
      return 1
