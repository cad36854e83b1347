import Messi.Base.Trace
import Messi.AsyncClient.Rules

/-!
# Phases of the async client

A client that has been started, and is not stopped, is in exactly one of four phases: it connects,
is connected, is about to report the end of the connection, or waits for the reconnect timer
(`phases`). The phase determines all that the framework holds for the client. What it holds, and
the callbacks and reasons in the log, are a function of the phase (`InPhase`), and each step leads
from one phase to another.
-/

namespace Messi.AsyncClient

open Trace

inductive Phase where
  | connecting
  | connected
  | reporting
  | waiting
  deriving DecidableEq

/-- How a phase shows. -/
def Phase.Holds (s : Client) : Phase → Prop
  | .connecting => 0 < s.stcp.connects
  | .connected => s.isConnected = true
  | .reporting => s.calls = 1
  | .waiting => s.armed .reconnect = true

/-- `on_connected` is the last of the two callbacks to have been called. -/
def up : List Event → Bool
  | [] => false
  | .onConnected :: _ => true
  | .onDisconnected _ :: _ => false
  | _ :: l => up l

/-- The first reason to disconnect since `on_connected` was last called. -/
def firstCause : List Event → Option DisconnectReason
  | [] => none
  | .onConnected :: _ => none
  | .cause r :: l => some ((firstCause l).getD r)
  | _ :: l => firstCause l

/-- `on_connected` and `on_disconnected` alternate, and the latter reports the first reason. -/
def Event.Alternates (l : List Event) : Event → Prop
  | .onConnected => up l = false
  | .onDisconnected r => up l = true ∧ firstCause l = some r
  | _ => True

instance (l : List Event) : DecidablePred (Event.Alternates l) := fun e => by
  rcases e <;> unfold Event.Alternates <;> infer_instance

/-! ## What a phase determines

There is no phase before the client is started, and while `on_disconnected` is called. -/

namespace Phase

def stcp : Option Phase → Stcp
  | some .connecting => ⟨1, false⟩
  | some .connected => ⟨0, true⟩
  | _ => ⟨0, false⟩

def armed (p : Option Phase) : Timer → Bool
  | .keepAlive => p = some .connected
  | .reconnect => p = some .waiting

def calls : Option Phase → ℕ
  | some .reporting => 1
  | _ => 0

def up : Option Phase → Bool
  | some .connected | some .reporting => true
  | _ => false

/-- The first reason to disconnect, if `reason` is the one to be reported. -/
def Cause (reason : DisconnectReason) (c : Option DisconnectReason) : Option Phase → Prop
  | some .connected => c = none
  | some .reporting => c = some reason
  | _ => True

/-- The phase after a reason to disconnect. -/
def ended : Option Phase → Option Phase
  | some .connected => some .reporting
  | p => p

end Phase

/-- The client is in a phase. -/
structure InPhase (p : Option Phase) (s : Client) : Prop where
  isConnected : s.isConnected = decide (p = some .connected)
  stcp : s.stcp = Phase.stcp p
  armed : s.armed = Phase.armed p
  calls : s.calls = Phase.calls p
  up : up s.log = Phase.up p
  cause : Phase.Cause s.disconnectReason (firstCause s.log) p
  alternates : Always Event.Alternates s.log

/-- The client is connected, whatever the framework holds of the connection and the keep-alive
timer. -/
structure Linked (s : Client) : Prop where
  isConnected : s.isConnected = true
  reconnect : s.armed .reconnect = false
  calls : s.calls = 0
  up : up s.log = true
  cause : firstCause s.log = none
  alternates : Always Event.Alternates s.log

/-- An event that says nothing of callbacks and reasons. -/
def Event.Neutral (e : Event) : Prop :=
  ∀ l, up (e :: l) = up l ∧ firstCause (e :: l) = firstCause l ∧ e.Alternates l

section

variable {s t : Client} {p : Option Phase}

theorem InPhase.linked (h : InPhase (some .connected) s) : Linked s :=
  ⟨h.isConnected, congrFun h.armed .reconnect, h.calls, h.up, h.cause, h.alternates⟩

theorem InPhase.emit (h : InPhase p s) (e : Event)
    (he : e.Neutral) : InPhase p (s.emit e) := by
  obtain ⟨hup, hcause, halt⟩ := he s.log
  exact ⟨h.isConnected, h.stcp, h.armed, h.calls, hup.trans h.up, hcause.symm ▸ h.cause, halt,
    h.alternates⟩

/-- A reason to disconnect that is met by a connected client is the first. -/
theorem Linked.disconnect (h : Linked s) (r : DisconnectReason) :
    InPhase (some .reporting) (disconnectAndStartReconnectTimer s r) := by
  have hcon : ¬ ((!(s.emit (.cause r)).isConnected) = true) := by simp [h.isConnected]
  unfold disconnectAndStartReconnectTimer
  dsimp only
  rw [if_neg hcon]
  refine ⟨rfl, rfl, ?_, congrArg (· + 1) h.calls, h.up, ?_, trivial, trivial, trivial, trivial,
    h.alternates⟩
  · funext timer
    cases timer with
    | keepAlive => rfl
    | reconnect => exact h.reconnect
  · show some ((firstCause s.log).getD r) = some r
    rw [h.cause]
    rfl

theorem InPhase.disconnect (h : InPhase p s) (r : DisconnectReason) :
    InPhase (Phase.ended p) (disconnectAndStartReconnectTimer s r) := by
  by_cases hp : p = some .connected
  · subst hp
    exact h.linked.disconnect r
  · have hdown : s.isConnected = false := h.isConnected.trans (decide_eq_false hp)
    have hended : Phase.ended p = p := by
      unfold Phase.ended
      split
      · exact absurd rfl hp
      · rfl
    have hsame : disconnectAndStartReconnectTimer s r = s.emit (.cause r) := by
      unfold disconnectAndStartReconnectTimer
      simp [hdown]
    rw [hended, hsame]
    refine ⟨h.isConnected, h.stcp, h.armed, h.calls, h.up, ?_, trivial, h.alternates⟩
    have hcause := h.cause
    show Phase.Cause s.disconnectReason (some ((firstCause s.log).getD r)) p
    cases p with
    | none => trivial
    | some p =>
      cases p with
      | connecting => trivial
      | connected => exact absurd rfl hp
      | reporting =>
        have hfirst : firstCause s.log = some s.disconnectReason := hcause
        rw [hfirst]
        rfl
      | waiting => trivial

/-! ## Callbacks and input -/

/-- The user's code sends, and starts and stops nothing. -/
def sender : Rights := ⟨false, false⟩

/-- The client is still in the phase, or has met a reason to disconnect. -/
def Within (p : Option Phase) (s : Client) : Prop := InPhase p s ∨ InPhase (Phase.ended p) s

theorem ended_ended (p : Option Phase) : Phase.ended (Phase.ended p) = Phase.ended p := by
  cases p with
  | none => rfl
  | some p => cases p <;> rfl

theorem Within.emit (h : Within p s) (e : Event)
    (he : e.Neutral) : Within p (s.emit e) :=
  h.imp (fun h => h.emit e he) fun h => h.emit e he

theorem calls_within (p : Option Phase) : CallsKeep sender (Within p) where
  start h := absurd h nofun
  stop h := absurd h nofun
  cause s r h := by
    rcases h with h | h
    · exact Or.inr (h.disconnect r)
    · exact Or.inr (ended_ended p ▸ h.disconnect r)
  write _ _ h := h.emit _ fun _ => ⟨rfl, rfl, trivial⟩

theorem InPhase.loopStep (h : InPhase p s) (hst : LoopStep s t) : InPhase p t := by
  have hlog : InPhase p { s with log := t.log } := by
    rcases hst.log with hlog | ⟨e, he, hlog⟩
    · rw [hlog]
      exact h
    · rw [hlog]
      cases e <;> first | exact h.emit _ fun _ => ⟨rfl, rfl, trivial⟩ | cases he
  refine ⟨hst.isConnected.trans h.isConnected, hst.stcp.trans h.stcp, hst.armed.trans h.armed,
    hst.calls.trans h.calls, hlog.up, ?_, hlog.alternates⟩
  rw [hst.disconnectReason]
  exact hlog.cause

theorem within_loopStep (p : Option Phase) (s t : Client) (hst : LoopStep s t) (h : Within p s) :
    Within p t :=
  h.imp (fun h => h.loopStep hst) fun h => h.loopStep hst

/-! ## Steps -/

/-- The client has been started. -/
def Started (s : Client) : Prop := ∃ p, InPhase (some p) s

theorem Within.started {p : Phase} (h : Within (some p) s) : Started s := by
  rcases h with h | h
  · exact ⟨p, h⟩
  · cases p with
    | connecting => exact ⟨.connecting, h⟩
    | connected => exact ⟨.reporting, h⟩
    | reporting => exact ⟨.reporting, h⟩
    | waiting => exact ⟨.waiting, h⟩

/-- Only a connected client has a connection, and so on: what is due tells the phase. -/
theorem InPhase.of_connects (h : InPhase p s) (hdue : 0 < s.stcp.connects) :
    p = some .connecting := by
  rw [h.stcp] at hdue
  unfold Phase.stcp at hdue
  split at hdue
  · rfl
  · exact absurd hdue (Nat.lt_irrefl 0)
  · exact absurd hdue (Nat.lt_irrefl 0)

theorem InPhase.of_connected (h : InPhase p s) (hdue : s.stcp.connected = true) :
    p = some .connected := by
  rw [h.stcp] at hdue
  unfold Phase.stcp at hdue
  split at hdue
  · cases hdue
  · rfl
  · cases hdue

theorem InPhase.of_keepAlive (h : InPhase p s) (hdue : s.armed .keepAlive = true) :
    p = some .connected := by
  rw [h.armed] at hdue
  exact of_decide_eq_true hdue

theorem InPhase.of_reconnect (h : InPhase p s) (hdue : s.armed .reconnect = true) :
    p = some .waiting := by
  rw [h.armed] at hdue
  exact of_decide_eq_true hdue

theorem InPhase.of_calls (h : InPhase p s) (hdue : 0 < s.calls) : p = some .reporting := by
  rw [h.calls] at hdue
  unfold Phase.calls at hdue
  split at hdue
  · rfl
  · exact absurd hdue (Nat.lt_irrefl 0)

theorem onStcpConnected_started (h : InPhase (some .connecting) s) (ok : Bool)
    (calls : List Call) : Started (onStcpConnected sender ok calls
      { s with stcp := ⟨s.stcp.connects - 1, s.stcp.connected || ok⟩ }) := by
  have hstcp : (⟨s.stcp.connects - 1, s.stcp.connected || ok⟩ : Stcp) = ⟨0, ok⟩ := by
    rw [h.stcp]
    rfl
  rw [hstcp]
  unfold onStcpConnected
  cases ok with
  | true =>
    rw [if_pos rfl]
    have hup : InPhase (some .connected) ({ timerStart { s with stcp := ⟨0, true⟩ } .keepAlive with
        pongReceived := true, isConnected := true }.emit .onConnected) := by
      refine ⟨rfl, rfl, ?_, h.calls, rfl, rfl, h.up, trivial, h.alternates⟩
      funext timer
      cases timer with
      | keepAlive => rfl
      | reconnect => exact congrFun h.armed .reconnect
    exact ((calls_within _).callback calls (Or.inl hup)).started
  | false =>
    refine ⟨.waiting, h.isConnected, rfl, ?_, h.calls, h.up, trivial, trivial, h.alternates⟩
    funext timer
    cases timer with
    | keepAlive => exact congrFun h.armed .keepAlive
    | reconnect => rfl

theorem onKeepAliveTimeout_started (h : InPhase (some .connected) s) :
    Started (onKeepAliveTimeout
      { s with armed := Function.update s.armed .keepAlive false }) := by
  have hlinked : Linked { s with armed := Function.update s.armed .keepAlive false } :=
    ⟨h.isConnected, congrFun h.armed .reconnect, h.calls, h.up, h.cause, h.alternates⟩
  unfold onKeepAliveTimeout
  split_ifs
  · refine ⟨.connected, h.isConnected, h.stcp, ?_, h.calls, h.up, h.cause, trivial, trivial,
      h.alternates⟩
    funext timer
    cases timer with
    | keepAlive => rfl
    | reconnect => exact congrFun h.armed .reconnect
  · exact ⟨.reporting, hlinked.disconnect _⟩

theorem InPhase.start (h : InPhase none s) : InPhase (some .connecting) (clientStart s) := by
  refine ⟨h.isConnected, ?_, h.armed, h.calls, h.up, trivial, trivial, h.alternates⟩
  show (⟨s.stcp.connects + 1, s.stcp.connected⟩ : Stcp) = ⟨1, false⟩
  rw [h.stcp]
  rfl

theorem InPhase.expired (h : InPhase (some .waiting) s) :
    InPhase none { s with armed := Function.update s.armed .reconnect false } := by
  refine ⟨h.isConnected, h.stcp, ?_, h.calls, h.up, trivial, h.alternates⟩
  funext timer
  cases timer with
  | keepAlive => exact congrFun h.armed .keepAlive
  | reconnect => rfl

theorem onDisconnected_started (h : InPhase (some .reporting) s) (calls : List Call) :
    Started (onDisconnected sender calls ({ s with calls := s.calls - 1 }.emit .called)) := by
  have hcalls : s.calls - 1 = 0 := by rw [h.calls]; rfl
  rw [hcalls]
  have hreport : InPhase none (({ s with calls := 0 }.emit .called).emit
      (.onDisconnected s.disconnectReason)) :=
    ⟨h.isConnected, h.stcp, h.armed, rfl, rfl, trivial, ⟨h.up, h.cause⟩, trivial, h.alternates⟩
  have hback := (calls_within none).callback calls (Or.inl hreport)
  have hidle := Or.elim hback id id
  refine ⟨.waiting, hidle.isConnected, hidle.stcp, ?_, hidle.calls, hidle.up, trivial, trivial,
    trivial, hidle.alternates⟩
  funext timer
  cases timer with
  | keepAlive => exact congrFun hidle.armed .keepAlive
  | reconnect => rfl

theorem started_steps : StepKeeps sender Started where
  call s c := by
    rintro ⟨p, h⟩
    exact ((calls_within (some p)).call (Or.inl h) c).started
  connected s ok calls hdue := by
    rintro ⟨p, h⟩
    have hp := Option.some.inj (h.of_connects hdue)
    exact onStcpConnected_started (hp ▸ h) ok calls
  disconnected s hdue := by
    rintro ⟨p, h⟩
    have hlinked := (h.of_connected hdue ▸ h).linked
    have hdown : Linked { s with stcp := { s.stcp with connected := false } } :=
      ⟨hlinked.isConnected, hlinked.reconnect, hlinked.calls, hlinked.up, hlinked.cause,
        hlinked.alternates⟩
    exact ⟨.reporting, hdown.disconnect _⟩
  input s es hdue := by
    rintro ⟨p, h⟩
    have hin := (calls_within (some p)).onStcpInput (within_loopStep (some p)) es (Or.inl h)
    exact hin.started
  keepAlive s hdue := by
    rintro ⟨p, h⟩
    exact onKeepAliveTimeout_started (h.of_keepAlive hdue ▸ h)
  reconnect s hdue := by
    rintro ⟨p, h⟩
    exact ⟨.connecting, (h.of_reconnect hdue ▸ h).expired.start⟩
  called s calls hdue := by
    rintro ⟨p, h⟩
    exact onDisconnected_started (h.of_calls hdue ▸ h) calls

/-- Nothing is due before the client is started. -/
theorem idle_steps : StepKeeps sender (InPhase none) where
  call _ c h := Or.elim ((calls_within none).call (Or.inl h) c) id id
  connected _ _ _ hdue h := absurd (h.of_connects hdue) nofun
  disconnected _ hdue h := absurd (h.of_connected hdue) nofun
  input _ _ hdue h := absurd (h.of_connected hdue) nofun
  keepAlive _ hdue h := absurd (h.of_keepAlive hdue) nofun
  reconnect _ hdue h := absurd (h.of_reconnect hdue) nofun
  called _ _ hdue h := absurd (h.of_calls hdue) nofun

theorem clientInit_idle (m : Client) (inSize outSize : ℕ) :
    InPhase none (clientInit m inSize outSize) := by
  refine ⟨rfl, rfl, ?_, rfl, rfl, trivial, trivial⟩
  funext timer
  cases timer <;> rfl

theorem InPhase.holds {p q : Phase} (h : InPhase (some p) s) : q.Holds s ↔ q = p := by
  have hcon := h.isConnected
  unfold Phase.Holds
  rw [h.stcp, h.calls, h.armed, hcon]
  cases p <;> cases q <;> simp [Phase.stcp, Phase.calls, Phase.armed]

/-- Between two events a client that is started once, at any time, and is never stopped is in
exactly one phase, with at most one connect and one call to come; the keep-alive timer runs exactly
while the client is connected; and the callbacks alternate, with the first reason in each report. -/
theorem phases (m : Client) (inSize outSize : ℕ) (before steps : List Step) :
    let s := run sender steps
      (clientStart ((run sender before (clientInit m inSize outSize)).emit .start))
    (∃! p : Phase, p.Holds s) ∧ s.stcp.connects ≤ 1 ∧ s.calls ≤ 1 ∧
      (s.armed .keepAlive = true ↔ s.isConnected = true) ∧ Always Event.Alternates s.log := by
  intro s
  have hidle := idle_steps.run before (clientInit_idle m inSize outSize)
  have hstart : Started
      (clientStart ((run sender before (clientInit m inSize outSize)).emit .start)) :=
    ⟨.connecting, (hidle.emit .start fun _ => ⟨rfl, rfl, trivial⟩).start⟩
  obtain ⟨p, h⟩ : Started s := started_steps.run steps hstart
  refine ⟨⟨p, h.holds.2 rfl, fun q hq => h.holds.1 hq⟩, ?_, ?_, ?_, h.alternates⟩
  · rw [h.stcp]
    cases p <;> simp [Phase.stcp]
  · rw [h.calls]
    cases p <;> simp [Phase.calls]
  · rw [h.armed, h.isConnected]
    exact Iff.rfl

end

end Messi.AsyncClient
