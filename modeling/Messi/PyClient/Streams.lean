import Messi.PyClient.Serving

/-!
# The streams of the Python client's connections

What is written to a connection, and what a main task handles of the one that it has made last.
Every message that is written is short enough for its header (`run_short`): packing a larger size
raises an exception.
-/

namespace Messi.PyClient

open Trace

/-- The messages written to a connection. -/
def written (conn : ℕ) : List Event → List Message
  | [] => []
  | .write conn' m :: l => if conn' = conn then written conn l ++ [m] else written conn l
  | _ :: l => written conn l

/-- The messages written to the connection that a main task has made last. -/
def issued (t : ℕ) (l : List Event) : List Message :=
  match connOf t l with
  | some conn => written conn l
  | none => []

/-- A connection of the task begins. -/
def Event.begins (t : ℕ) : Event → Bool
  | .connected u _ => u = t
  | _ => false

def Event.Short (_ : List Event) : Event → Prop
  | .write _ m => m.2.length < 2 ^ 24
  | _ => True

section

variable {t : ℕ} {s s' : Client} {l l' : List Event}

theorem Move.short (h : Move s s') (hs : Always Event.Short s.log) : Always Event.Short s'.log := by
  cases h with
  | keep hlog => exact hlog ▸ hs
  | emit e he => exact ⟨by cases e <;> trivial, hs⟩
  | write conn m hwriter hlen => exact ⟨hlen, hs⟩
  | close conn hwriter => exact ⟨trivial, hs⟩
  | connect t => exact ⟨trivial, hs⟩

theorem run_short (steps : List Step) : Always Event.Short (run steps).log := by
  have hmoves := run_moves steps
  generalize run steps = s at hmoves
  induction hmoves with
  | refl => trivial
  | tail _ hmove ih => exact hmove.short ih

theorem issued_short (h : Always Event.Short l) : ∀ m ∈ issued t l, m.2.length < 2 ^ 24 := by
  have hwritten : ∀ conn, ∀ m ∈ written conn l, m.2.length < 2 ^ 24 := fun conn => by
    induction l with
    | nil => nofun
    | cons e l ih =>
      cases e
      case write conn' m' =>
        intro m hm
        unfold written at hm
        split_ifs at hm
        · rcases List.mem_append.1 hm with hm | hm
          · exact ih h.2 m hm
          · rw [List.mem_singleton.1 hm]
            exact h.1
        · exact ih h.2 m hm
      all_goals exact ih h.2
  unfold issued
  split
  · exact hwritten _
  · nofun

/-! ## A connection goes on -/

theorem handled_collects (t : ℕ) : Collects (Event.begins t) (fun _ e => match e with
    | .message u m => if u = t then [m] else []
    | _ => []) (handled t) where
  nil := rfl
  cons l e := by
    cases e <;> simp [handled, Event.begins]
    split_ifs <;> simp

/-- The messages written grow until the task makes another connection. -/
theorem issued_grows (l : List Event) {e : Event} (he : e.begins t = false) :
    issued t l <+: issued t (e :: l) := by
  have hconn : connOf t (e :: l) = connOf t l := by
    cases e with
    | connected u conn => exact if_neg (of_decide_eq_false he)
    | _ => rfl
  unfold issued
  rw [hconn]
  split
  · cases e with
    | write conn' m =>
      rw [written]
      split_ifs
      · exact List.prefix_append _ _
      · exact List.prefix_rfl
    | _ => exact List.prefix_rfl
  · exact List.prefix_rfl

end

end Messi.PyClient
