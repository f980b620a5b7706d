/-
# Running a callback

A callback's actions are carried out one after the other. Each of them is written
into the journal with its result; the first failure that was not only an attempt
ends the callback.

Key definitions: `Station.act`, `Station.runBody`, `Occurrence.isTraced`.
-/
import TaskHost.Worker.Basic

namespace TaskHost
namespace Station

/-- Carries out an action. -/
def act (s : Station) : Action → Station × Except TaskError Answer
  | .call c =>
    let (s, r) := s.call c
    (s, r.mapError .host)
  | .mark note => (s, .ok (.note note))
  | .who => (s, .ok (.identity s.worker.identity))
  | .register task body =>
    let (s, r) := s.register task body
    (s, (r.map fun () => .done).mapError .registry)
  | .setTimeout delay body =>
    let (s, id) := s.setTimeout delay body
    (s, .ok (.timer id))
  | .console stream args => (s.consoleWrite stream args, .ok .done)
  | .log entry => (s.log entry, .ok .done)
  | .pause delay =>
    let (s, r) := s.sleep delay
    (s, (r.map fun () => .done).mapError .host)
  | .fail text => (s, .error (.failed text))
  | .attempt a => s.act a

/-- Carries out an action and writes it into the journal. -/
def perform (scope : Option TaskId) (s : Station) (a : Action) :
    Station × Except TaskError Answer :=
  let (s, r) := s.act a
  (s.note (.acted scope s.host.clock a r), r)

/-- Carries out actions in order, up to a failure. -/
def runBody (scope : Option TaskId) : Body → Station → Station × Except TaskError Unit
  | [], s => (s, .ok ())
  | a :: rest, s =>
    match s.perform scope a with
    | (s, .ok _) => runBody scope rest s
    | (s, .error e) => if a.isAttempt then runBody scope rest s else (s, .error e)

/-- Runs a callback, from its beginning to its end. -/
def runCallback (s : Station) (trigger : Trigger) (scope : Option TaskId) (body : Body) :
    Station × Except TaskError Unit :=
  let s := s.note (.began trigger scope s.worker.registry.running body)
  let (s, r) := s.runBody scope body
  (s.note (.ended trigger r), r)

end Station

/-- The occurrences that a session shows: attempts, and successes of host calls,
marks, looks at the identity and timers. -/
def Occurrence.isTraced : Occurrence → Bool
  | .acted _ _ (.attempt _) _ => true
  | .acted _ _ (.call _) (.ok _) => true
  | .acted _ _ (.mark _) (.ok _) => true
  | .acted _ _ .who (.ok _) => true
  | .acted _ _ (.setTimeout _ _) (.ok _) => true
  | _ => false

end TaskHost
