import Inlay.Session.Concurrent

set_option autoImplicit false

namespace Inlay

open Markup

structure Supply where
  texts : List (Text × Option Text) := []
  pauses : Text → Nat := fun _ => 0

namespace Supply

def text? (supply : Supply) (path : Text) : Option Text :=
  (supply.texts.lookup path).join

def put (supply : Supply) (path : Text) (text? : Option Text) : Supply :=
  { supply with texts := (path, text?) :: supply.texts }

def reader (supply : Supply) : Reader where
  read path :=
    match supply.text? path with
    | some text => .ok text
    | none => .error (.missing path)
  pauses := supply.pauses

end Supply

inductive Step
  | transform (document text : Text)
  | transformAccepted (document text : Text)
  | transformAll (documents : List (Text × Text))
  | load (path written : Text)
  | getBlock (path written : Text)
  | supply (path : Text) (text? : Option Text)
  | clearStore
  | clearLedger
  | reset
  deriving Repr, DecidableEq

inductive Answer
  | done
  | code (result : Except Failure (Option Text))
  | codes (results : List (Except Failure (Option Text)))
  | raw (result : Except Failure Text)
  | block (result : Except Failure Block)

structure Run where
  session : Session := {}
  supply : Supply := {}

namespace Run

def keep {A : Type} (run : Run) (answer : A → Answer) (outcome : Session × A) : Run × Answer :=
  ({ run with session := outcome.1 }, answer outcome.2)

def step (run : Run) : Step → Run × Answer
  | .transform document text =>
    run.keep .code (run.session.transform run.supply.reader document text)
  | .transformAccepted document text =>
    run.keep .code (run.session.transformAccepted run.supply.reader document text)
  | .transformAll documents =>
    run.keep .codes (run.session.transformAll run.supply.reader documents)
  | .load path written => run.keep .raw (run.session.load run.supply.reader path written)
  | .getBlock path written => run.keep .block (run.session.getBlock run.supply.reader path written)
  | .supply path text? => ({ run with supply := run.supply.put path text? }, .done)
  | .clearStore => ({ run with session := run.session.clearStore }, .done)
  | .clearLedger => ({ run with session := run.session.clearLedger }, .done)
  | .reset => ({ run with session := run.session.reset }, .done)

def steps (run : Run) : List Step → Run × List Answer
  | [] => (run, [])
  | step :: rest =>
    let (run, answer) := run.step step
    let (run, answers) := run.steps rest
    (run, answer :: answers)

def after (run : Run) (steps : List Step) : Run :=
  (run.steps steps).1

def readsSince (start run : Run) : List Text :=
  Journal.reads (run.session.journal.drop start.session.journal.length)

@[simp] theorem after_cons (run : Run) (step : Step) (steps : List Step) :
    run.after (step :: steps) = (run.step step).1.after steps := rfl

theorem after_append (run : Run) (first second : List Step) :
    run.after (first ++ second) = (run.after first).after second := by
  induction first generalizing run with
  | nil => rfl
  | cons step first ih => exact ih (run.step step).1

end Run
end Inlay
