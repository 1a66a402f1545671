import CalcDoc.Command.Basic

/-!
# Jobs

A command works on files and writes to two streams, one for documents and one for messages. What
it does next may depend on the files it has seen, and on nothing else.

- `Job`: ends with a result or an error, or takes one step and goes on.
- `World`: a disk and what has been written to the streams.
- `Job.run`: the end of a job in a world.
- `Job.run_andThen`: a job and what follows it run one after the other.
-/

namespace CalcDoc

/-- A computation that works on files and writes messages. -/
inductive Job (α : Type) where
  | done (a : α)
  | fail (e : Command.Error)
  /-- Goes on knowing whether a path leads to anything. -/
  | look (p : Path) (next : Bool → Job α)
  | read (p : Path) (next : Except Refusal Text → Job α)
  | write (p : Path) (t : Text) (next : Except Refusal Unit → Job α)
  | makeFolders (p : Path) (next : Except Refusal Unit → Job α)
  /-- Writes to the stream of documents. -/
  | print (t : Text) (next : Job α)
  /-- Writes to the stream of messages. -/
  | note (message : String) (next : Job α)

/-- A disk and what has been written to the streams. -/
structure World where
  disk : Disk
  documents : Text
  messages : Text

namespace Job

variable {α β : Type}

/-- A job that goes on with the result of another. -/
def andThen (j : Job α) (k : α → Job β) : Job β :=
  match j with
  | .done a => k a
  | .fail e => .fail e
  | .look p next => .look p fun b => andThen (next b) k
  | .read p next => .read p fun r => andThen (next r) k
  | .write p t next => .write p t fun r => andThen (next r) k
  | .makeFolders p next => .makeFolders p fun r => andThen (next r) k
  | .print t next => .print t (andThen next k)
  | .note message next => .note message (andThen next k)

/-- The job that takes no step. -/
def ofExcept : Except Command.Error α → Job α
  | .ok a => .done a
  | .error e => .fail e

/-- The world after a change of its disk that may be refused. -/
def change (w : World) (r : Except Refusal Disk) : Except Refusal Unit × World :=
  match r with
  | .ok disk => (.ok (), { w with disk })
  | .error e => (.error e, w)

/-- The end of a job in a world, and the world that it leaves. -/
def run : Job α → World → Except Command.Error α × World
  | .done a, w => (.ok a, w)
  | .fail e, w => (.error e, w)
  | .look p next, w => run (next (w.disk.has p)) w
  | .read p next, w => run (next (w.disk.read p)) w
  | .write p t next, w =>
    let (r, w) := change w (w.disk.write p t)
    run (next r) w
  | .makeFolders p next, w =>
    let (r, w) := change w (w.disk.makeFolders p)
    run (next r) w
  | .print t next, w => run next { w with documents := w.documents ++ t }
  | .note message next, w => run next { w with messages := w.messages ++ message.toList }

@[simp] theorem done_andThen (a : α) (k : α → Job β) : (done a).andThen k = k a := rfl

@[simp] theorem fail_andThen (e : Command.Error) (k : α → Job β) :
    (fail e : Job α).andThen k = fail e := rfl

/-- A job and what follows it run one after the other. -/
theorem run_andThen (j : Job α) (k : α → Job β) (w : World) :
    (j.andThen k).run w =
      match j.run w with
      | (.ok a, w) => (k a).run w
      | (.error e, w) => (.error e, w) := by
  induction j generalizing w with
  | done a => rfl
  | fail e => rfl
  | look p next ih => exact ih _ _
  | read p next ih => exact ih _ _
  | write p t next ih => simp only [andThen, run, ih]
  | makeFolders p next ih => simp only [andThen, run, ih]
  | print t next ih => exact ih _
  | note message next ih => exact ih _

end Job

end CalcDoc
