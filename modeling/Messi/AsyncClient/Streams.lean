import Messi.AsyncClient.Receiving

/-!
# The streams of the async client's connection

What the client writes goes out as long as there is a connection.
-/

namespace Messi.AsyncClient

open Trace

/-- The messages written to the last connection while there was one. -/
def written : List Event → List Message
  | [] => []
  | .onConnected :: _ => []
  | .write connected m :: l => if connected then written l ++ [m] else written l
  | _ :: l => written l

/-- A connection begins. -/
def Event.begins : Event → Bool
  | .onConnected => true
  | _ => false

theorem handled_collects : Collects Event.begins (fun _ e => match e with
    | .handleMessage m => [m]
    | _ => []) handled where
  nil := rfl
  cons l e := by cases e <;> simp [handled, Event.begins]

theorem written_collects : Collects Event.begins (fun _ e => match e with
    | .write true m => [m]
    | _ => []) written where
  nil := rfl
  cons l e := by
    cases e
    case write connected m => cases connected <;> simp [written, Event.begins]
    all_goals simp [written, Event.begins]

end Messi.AsyncClient
