import Messi.LinuxServer.Api
import Messi.LinuxServer.Serving
import Messi.AsyncServer.Serving

/-!
# The two servers receive alike

The same stream is sent to a Linux server and to an async server, with input buffers of the same
size. As long as no frame is rejected, the same messages are handled and both connections are up
(`served_alike_iff`). After a rejected frame the Linux server has ended its connection, and the
async server has not.
-/

namespace Messi

/-- A message of a type that the servers know, which can be decoded if it is a user message. -/
def servable (decode : List UInt8 → Bool) (m : Message) : Bool :=
  if m.1 = messageTypeClientToServerUser then decode m.2 else m.1 = messageTypePing

/-- The same messages have been handled, and either both connections have ended or none. -/
structure ServedAlike (s : LinuxServer.Server) (c : LinuxServer.Slot) (t : AsyncServer.Server)
    (d : AsyncServer.Slot) : Prop where
  handled : AsyncServer.handled d t.log = LinuxServer.handled c s.log
  ended : t.connected d = false ↔ s.clientFd c = -1

section

variable {sz : ℕ} {ok : Message → Bool} {stream : List UInt8} {α : Type*}
  {cb : LinuxServer.Callbacks α} {s : LinuxServer.Server} {c : LinuxServer.Slot}
  {t : AsyncServer.Server} {d : AsyncServer.Slot}

/-- A Linux connection on which nothing has been rejected has handled the messages of its stream. -/
theorem linux_serves (h : LinuxServer.Served sz ok cb c s)
    (hno : ¬ Rejects sz ok (LinuxServer.received c s.log)) :
    LinuxServer.handled c s.log = framed sz (LinuxServer.received c s.log) ∧
      s.clientFd c ≠ -1 := by
  rcases h.outcome with hserves | hended
  · exact ⟨hserves.progress.handled_eq, hserves.clientFd⟩
  · exact absurd hended.rejects hno

/-- A Linux connection on which something has been rejected has ended. -/
theorem linux_ended (h : LinuxServer.Served sz ok cb c s)
    (hr : Rejects sz ok (LinuxServer.received c s.log)) : s.clientFd c = -1 := by
  rcases h.outcome with hserves | hended
  · exact absurd hr hserves.progress.not_rejects
  · exact hended.clientFd

/-- An async connection on which nothing has been rejected has handled the messages of its
stream. -/
theorem async_serves (h : AsyncServer.Served sz ok d t)
    (hno : ¬ Rejects sz ok (AsyncServer.received d t.log)) :
    AsyncServer.handled d t.log = framed sz (AsyncServer.received d t.log) := by
  rcases h.outcome.2 with hserves | hr
  · exact hserves.progress.handled_eq
  · exact absurd hr hno

/-- The servers have served the stream alike just if no frame in it is rejected: none is too big for
the input buffer, of an unknown type, or a user message that cannot be decoded. -/
theorem served_alike_iff {decode : List UInt8 → Bool}
    (hs : LinuxServer.Served sz (servable decode) cb c s)
    (ht : AsyncServer.Served sz (servable decode) d t)
    (hrs : ReadUp sz (servable decode) stream (LinuxServer.received c s.log))
    (hrt : ReadUp sz (servable decode) stream (AsyncServer.received d t.log)) :
    ServedAlike s c t d ↔ ¬ Rejects sz (servable decode) stream := by
  have hup : t.connected d = true := ht.outcome.1
  constructor
  · intro halike hr
    have hdown : t.connected d = false := halike.ended.2 (linux_ended hs (hrs.rejects hr))
    rw [hup] at hdown
    cases hdown
  · intro hno
    have hrecs := hrs.eq_of_not_rejects hno
    have hrect := hrt.eq_of_not_rejects hno
    obtain ⟨hlinux, hfd⟩ := linux_serves hs (hrecs ▸ hno)
    have hasync := async_serves ht (hrect ▸ hno)
    constructor
    · rw [hlinux, hasync, hrecs, hrect]
    · rw [hup]
      exact ⟨nofun, fun h => absurd h hfd⟩

end

/-! ## Samples -/

section

open LinuxServer.Sample in
/-- A Linux server that has accepted a client. -/
def linuxConnected : LinuxServer.Server :=
  (LinuxServer.acceptClient (α := LinuxServer.Call)
    ⟨some 5, true, true, some 6, true, true, true, []⟩
    (server 1 16)).2

/-- The client sends some pieces of its stream to the Linux server. -/
def linuxServed (pieces : List (List UInt8)) : LinuxServer.Server :=
  (LinuxServer.processClientSocketIn (LinuxServer.callbacks ⟨false, false⟩ 0) 0
    (pieces.map fun bs => LinuxServer.Sample.read (.data bs) []) linuxConnected).state

/-- An async server that has accepted a client. -/
def asyncConnected : AsyncServer.Server :=
  AsyncServer.run [.connected 0 []] (AsyncServer.Sample.server 1 16)

/-- The client sends some pieces of its stream to the async server. -/
def asyncServed (pieces : List (List UInt8)) : AsyncServer.Server :=
  AsyncServer.onStcpClientInput 0 (pieces.map AsyncServer.Sample.bytes) asyncConnected

theorem linuxConnected_fresh : LinuxServer.Fresh 16 linuxConnected 0 :=
  ⟨⟨rfl, rfl, rfl, rfl, rfl⟩, by decide, rfl, rfl, rfl⟩

theorem asyncConnected_fresh : AsyncServer.Fresh 16 asyncConnected 0 :=
  ⟨rfl, rfl, rfl, rfl, rfl⟩

/-- The Linux server has served the pieces, if every message was answered as `decode` says. -/
theorem linuxServed_served {decode : List UInt8 → Bool} {pieces : List (List UInt8)}
    (hne : ∀ bs ∈ pieces, bs ≠ [])
    (hans : LinuxServer.AnswersAs (servable decode) (LinuxServer.callbacks ⟨false, false⟩ 0) 0
      (pieces.map fun bs => LinuxServer.Sample.read (.data bs) []) linuxConnected)
    (hdone : LinuxServer.processClientSocketIn (LinuxServer.callbacks ⟨false, false⟩ 0) 0
      (pieces.map fun bs => LinuxServer.Sample.read (.data bs) []) linuxConnected =
        .done () (linuxServed pieces)) :
    LinuxServer.Served 16 (servable decode) (LinuxServer.callbacks ⟨false, false⟩ 0) 0
      (linuxServed pieces) := by
  have hplain : ∀ e ∈ pieces.map fun bs => LinuxServer.Sample.read (.data bs) [],
      LinuxServer.Plain (LinuxServer.callbacks ⟨false, false⟩ 0) 0 e := by
    intro e he
    obtain ⟨bs, hbs, rfl⟩ := List.mem_map.1 he
    exact ⟨⟨nofun, fun h => hne bs hbs (ReadRes.data.inj h)⟩, nofun,
      fun s => ⟨s, rfl, LinuxServer.Stays.refl 0 s⟩⟩
  exact .input (.accepted linuxConnected_fresh) (by decide) hplain hans hdone

/-- The async server has served the pieces. -/
theorem asyncServed_served {decode : List UInt8 → Bool} {pieces : List (List UInt8)}
    (hans : AsyncServer.AnswersAs (servable decode) 0 (pieces.map AsyncServer.Sample.bytes)
      asyncConnected) : AsyncServer.Served 16 (servable decode) 0 (asyncServed pieces) :=
  .input (.accepted asyncConnected_fresh) hans

/-- A ping and a user message. -/
theorem served_alike_iff_pieces :
    ServedAlike (linuxServed [[3, 0], [0, 0], [1, 0, 0, 1], [7]]) 0
      (asyncServed [[3], [0, 0, 0], [1, 0, 0], [1], [7]]) 0 ↔
        ¬ Rejects 16 (servable fun payload => payload.length = 1) [3, 0, 0, 0, 1, 0, 0, 1, 7] :=
  served_alike_iff
    (linuxServed_served (by decide)
      ⟨by decide,
        fun _ => ⟨by decide, fun _ => ⟨by decide, fun _ => ⟨by decide, fun _ => trivial⟩⟩⟩⟩
      rfl)
    (asyncServed_served ⟨by decide, fun _ => ⟨by decide, fun _ => ⟨by decide, fun _ =>
      ⟨by decide, fun _ => ⟨by decide, fun _ => trivial⟩⟩⟩⟩⟩)
    ⟨by decide, Or.inl (by decide)⟩ ⟨by decide, Or.inl (by decide)⟩

/-- A message of an unknown type: the Linux server ends its connection, and the async server does
not. -/
theorem not_servedAlike_unknown :
    LinuxServer.Served 16 (servable fun _ => true) (LinuxServer.callbacks ⟨false, false⟩ 0) 0
        (linuxServed [[9, 0, 0, 0]]) ∧
      AsyncServer.Served 16 (servable fun _ => true) 0 (asyncServed [[9, 0, 0, 0]]) ∧
      LinuxServer.received 0 (linuxServed [[9, 0, 0, 0]]).log = [9, 0, 0, 0] ∧
      AsyncServer.received 0 (asyncServed [[9, 0, 0, 0]]).log = [9, 0, 0, 0] ∧
      ¬ ServedAlike (linuxServed [[9, 0, 0, 0]]) 0 (asyncServed [[9, 0, 0, 0]]) 0 := by
  refine ⟨linuxServed_served (by decide) ⟨by decide, nofun⟩ rfl,
    asyncServed_served ⟨by decide, nofun⟩, by decide, by decide, ?_⟩
  intro halike
  have hdown : (asyncServed [[9, 0, 0, 0]]).connected 0 = false := halike.ended.2 (by decide)
  revert hdown
  decide

end

end Messi
