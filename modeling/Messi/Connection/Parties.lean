import Messi.LinuxClient.Streams
import Messi.LinuxServer.Api

/-!
# A client and a server

A Linux client and a Linux server that act in any order, with a connection between them: a slot of
the server on the one side, the first connection of the client on the other. The transport is
reliable: each has received the first bytes of those that the other one's socket has accepted. What
the operating system answers is a part of each act, so an act whose answers do not fit the
connection is not taken.
-/

namespace Messi.Connection

open LinuxClient (connects outgoing)
open LinuxServer (accepted Slot)

structure Parties where
  server : LinuxServer.Server
  client : LinuxClient.Client

/-- What the users of the two do in their callbacks and how deep calls nest there, and the slot of
the client. -/
structure Setting where
  callInDisconnected : Bool
  depth : ℕ
  top : LinuxClient.Rights
  inner : LinuxClient.Rights
  nest : ℕ
  slot : Slot

inductive Act where
  | server (call : LinuxServer.Call)
  | client (call : LinuxClient.Call)

/-- The connection holds the bytes that have been accepted and not received. -/
structure Wired (σ : Setting) (p : Parties) : Prop where
  connects : connects p.client.log = 1
  toClient : LinuxClient.received p.client.log <+: accepted σ.slot p.server.log
  toServer : LinuxServer.received σ.slot p.server.log <+: outgoing p.client.log

instance (σ : Setting) (p : Parties) : Decidable (Wired σ p) :=
  decidable_of_iff (connects p.client.log = 1 ∧
    LinuxClient.received p.client.log <+: accepted σ.slot p.server.log ∧
    LinuxServer.received σ.slot p.server.log <+: outgoing p.client.log)
    ⟨fun ⟨h, h', h''⟩ => ⟨h, h', h''⟩, fun ⟨h, h', h''⟩ => ⟨h, h', h''⟩⟩

def Setting.discipline (σ : Setting) : LinuxServer.Discipline := ⟨false, σ.callInDisconnected⟩

def serverAct (σ : Setting) : LinuxServer.Call → LinuxServer.Server →
    Exec LinuxServer.Server Unit :=
  LinuxServer.callWith (LinuxServer.callbacks σ.discipline σ.depth)

def clientAct (σ : Setting) : LinuxClient.Call → LinuxClient.Client → LinuxClient.Client :=
  LinuxClient.callWith (LinuxClient.callbacks σ.inner σ.nest) σ.top

def step (σ : Setting) : Act → Parties → Exec Parties Unit
  | .server call, p =>
    match serverAct σ call p.server with
    | .done _ s => if Wired σ ⟨s, p.client⟩ then .done () ⟨s, p.client⟩ else .done () p
    | .inside s => if Wired σ ⟨s, p.client⟩ then .inside ⟨s, p.client⟩ else .done () p
  | .client call, p =>
    let t := clientAct σ call p.client
    if Wired σ ⟨p.server, t⟩ then .done () ⟨p.server, t⟩ else .done () p

def run (σ : Setting) : List Act → Parties → Exec Parties Unit := Exec.runList (step σ)

section

variable {σ : Setting} {s s₀ : LinuxServer.Server} {t t₀ : LinuxClient.Client} {p : Parties}

/-- What each of the two has done is a run of its own; between two acts the server has returned. -/
structure Joined (σ : Setting) (s₀ : LinuxServer.Server) (t₀ : LinuxClient.Client) (p : Parties) :
    Prop where
  wired : Wired σ p
  server : ∃ calls, LinuxServer.run σ.discipline σ.depth calls s₀ = .done () p.server
  client : ∃ calls, p.client = LinuxClient.run σ.top σ.inner σ.nest calls t₀

/-- The same, also when the run is looked at inside a callback of the server. -/
structure Seen (σ : Setting) (s₀ : LinuxServer.Server) (t₀ : LinuxClient.Client) (p : Parties) :
    Prop where
  wired : Wired σ p
  server : ∃ calls, (LinuxServer.run σ.discipline σ.depth calls s₀).state = p.server
  client : ∃ calls, p.client = LinuxClient.run σ.top σ.inner σ.nest calls t₀

theorem Joined.seen (h : Joined σ s₀ t₀ p) : Seen σ s₀ t₀ p := by
  obtain ⟨calls, hcalls⟩ := h.server
  exact ⟨h.wired, ⟨calls, by rw [hcalls]; rfl⟩, h.client⟩

theorem run_append_server (calls : List LinuxServer.Call) (call : LinuxServer.Call)
    (h : LinuxServer.run σ.discipline σ.depth calls s₀ = .done () s) :
    LinuxServer.run σ.discipline σ.depth (calls ++ [call]) s₀ = serverAct σ call s := by
  unfold LinuxServer.run at h ⊢
  rw [Exec.runList_append, h]
  exact Exec.runList_single _ _ _

theorem run_append_client (calls : List LinuxClient.Call) (call : LinuxClient.Call) :
    LinuxClient.run σ.top σ.inner σ.nest (calls ++ [call]) t₀ =
      clientAct σ call (LinuxClient.run σ.top σ.inner σ.nest calls t₀) :=
  List.foldl_concat _ _ _ _

theorem step_joined (a : Act) (h : Joined σ s₀ t₀ p) :
    Exec.Sat (Seen σ s₀ t₀) (fun _ => Joined σ s₀ t₀) (step σ a p) := by
  cases a with
  | server call =>
    obtain ⟨calls, hcalls⟩ := h.server
    have hrun := run_append_server calls call hcalls
    unfold step
    dsimp only
    generalize serverAct σ call p.server = x at hrun ⊢
    cases x with
    | done r s =>
      dsimp only
      split_ifs with hw
      · exact ⟨hw, ⟨calls ++ [call], hrun⟩, h.client⟩
      · exact h
    | inside s =>
      dsimp only
      split_ifs with hw
      · exact ⟨hw, ⟨calls ++ [call], by rw [hrun]; rfl⟩, h.client⟩
      · exact h
  | client call =>
    obtain ⟨calls, hcalls⟩ := h.client
    unfold step
    dsimp only
    split_ifs with hw
    · exact ⟨hw, h.server, calls ++ [call], by rw [run_append_client, ← hcalls]⟩
    · exact h

theorem run_joined (acts : List Act) (h : Joined σ s₀ t₀ p) :
    Exec.Sat (Seen σ s₀ t₀) (fun _ => Joined σ s₀ t₀) (run σ acts p) :=
  Exec.Sat.runList (fun a _ h => step_joined a h) acts h

theorem run_seen (acts : List Act) (h : Joined σ s₀ t₀ p) : Seen σ s₀ t₀ (run σ acts p).state :=
  (run_joined acts h).state fun _ _ => Joined.seen

end

end Messi.Connection
