import Mathlib.Logic.Function.Basic
import DdingGameServer.Common.System
import DdingGameServer.MultiLanClient.Framing
/-!
# MultiLanClient — channels, connections and threads

`CMultiLanClient` keeps a fixed list of sessions, one channel each, and connects every one of them
again when it is lost. Threads of four kinds work on them: `Start` connects them first; any number
of threads call `SendPacket`; the workers handle completions; and one `Reconnecter` takes the ids of
released sessions off a list.

A thread is at one operation of one session at a time, or idle. An operation is what the source does
between two accesses to shared data, with what the thread carries in its local variables as
arguments. `SendPost`, `RecvPost` and `ReleaseSession` are called from several places, so their
operations carry the `Caller`, which says where the thread goes on. Two things are taken as one
operation because nobody can see the state between them: what `Start` does to a session up to its
`RecvPost`, and a failing `WSASend` or `WSARecv` with the decrement behind it.

`m_IOCount` is taken as an integer, so that it can be seen below 0. `SendQ` is a queue whose
`GetRestSize` is its length. A `Start` that fails ends the process, and so does `WSAENOBUFS`;
neither is followed. Nor is `Stop`, or a `Reconnecter` whose `socket` or `setsockopt` fails: it
returns, and nobody takes up the lost sessions any more. A look of `Reconnecter` at an empty list,
every five seconds, and a `connect` that is tried again are no steps.
-/

namespace DdingGameServer

namespace MultiLanClient

/-- What the option file says, and the size of the receive rings. -/
structure Config where
  numOfWorkerThread : ℕ
  numOfUsingWorkerThread : ℕ
  numOfSession : ℕ
  isReconnect : Bool
  ringCapacity : ℕ
  deriving DecidableEq, Repr

/-- `IOCP_ONE_SEND_WSABUF_MAX`. -/
def iocpOneSendWsabufMax : ℕ := 200

/-- A `CSerializationBuf` as one call of `SendPacket` hands it over, and the `fixedId` of the
call. -/
structure Buffer where
  serial : ℕ
  fixedId : Option UInt64
  deriving DecidableEq, Repr

/-- `NONSENDING` and `SENDING`. -/
inductive IoMode
  | nonSending
  | sending
  deriving DecidableEq, Repr

/-- The return values of `RecvPost` and `SendPost`. -/
inductive PostRetval
  | errSessionDeleted
  | err
  | complete
  deriving DecidableEq, Repr

/-- An overlapped operation at the kernel. -/
inductive Request
  | recv
  | send (wsaSendBuf : List Buffer)
  deriving DecidableEq, Repr

/-- A finished one, in the completion queue. A receive that transferred nothing is the end of its
connection. -/
inductive Completion
  | recv (data : List UInt8)
  | send (wsaSendBuf : List Buffer)
  deriving DecidableEq, Repr

/-- A session, with its overlapped operations. -/
structure Session where
  ioCount : ℤ
  ringBuffer : List UInt8
  lBufferCount : ℤ
  ioMode : IoMode
  sendQ : List Buffer
  serializeBufStore : ℕ → Option Buffer
  /-- `m_sock` is a connected socket. -/
  connected : Bool
  posted : List Request
  completed : List Completion

/-- `new Session()`. -/
def Session.new : Session where
  ioCount := 0
  ringBuffer := []
  lBufferCount := 0
  ioMode := .nonSending
  sendQ := []
  serializeBufStore := fun _ => none
  connected := false
  posted := []
  completed := []

/-- Who called `SendPost`, `RecvPost` or `ReleaseSession`. -/
inductive Caller
  | sendPacketImpl
  | worker
  | reconnecter
  | start
  deriving DecidableEq, Repr

/-- Where a thread is. -/
inductive Op
  /-- `SendPacketImpl`. -/
  | enqueue (packet : Buffer)
  /-- `SendPost`. -/
  | sendPostCas (caller : Caller)
  | getRestSize (caller : Caller)
  | resetMode (caller : Caller)
  | recheckRestSize (caller : Caller)
  | dequeue (caller : Caller) (useSize : ℕ) (wsaSendBuf : List Buffer)
  | setBufferCount (caller : Caller) (wsaSendBuf : List Buffer)
  | countSend (caller : Caller) (wsaSendBuf : List Buffer)
  | wsaSend (caller : Caller) (wsaSendBuf : List Buffer)
  /-- `RecvPost`. -/
  | recvPost (caller : Caller)
  | countRecv (caller : Caller)
  | wsaRecv (caller : Caller)
  /-- `ReleaseSession`. -/
  | releaseSession (caller : Caller)
  | readRestSize (caller : Caller) (sendBufferRestSize : ℤ)
  | freeStored (caller : Caller) (sendBufferRestSize : ℤ) (i rest : ℕ)
  | freeQueued (caller : Caller) (rest : ℕ) (deleteBuf : Option Buffer)
  | closeSocket (caller : Caller)
  | invalidateSocket (caller : Caller)
  | pushReconnect (caller : Caller)
  /-- `Worker`. -/
  | recvCompleted (data : List UInt8)
  | sendCompleted
  | freeSent (bufferCount : ℤ) (i : ℕ)
  | subtractCount (bufferCount : ℤ)
  | resetSending
  | workerEnd
  /-- `Reconnecter`. -/
  | newSocket
  | connect
  | popFront
  deriving DecidableEq, Repr

/-- Where the caller goes on: a worker gives its reference back unless the session is gone. -/
def Caller.resume : Caller → PostRetval → Option Op
  | .worker, .errSessionDeleted => none
  | .worker, _ => some .workerEnd
  | .reconnecter, _ => some .popFront
  | .sendPacketImpl, _ => none
  | .start, _ => none

/-- What one operation does: the session and `sessionReconnectIdList` after it, the buffers it
passes to `CSerializationBuf::Free`, and where the thread is next. -/
structure Outcome where
  session : Session
  reconnectIdList : List ℕ
  freed : List Buffer
  next : Option Op

/-- `InterlockedDecrement` of `m_IOCount`, with `ReleaseSession` where it was the last reference. -/
def decrement (se : Session) (reconnectIdList : List ℕ) (caller : Caller) (next : Option Op) :
    Outcome where
  session := { se with ioCount := se.ioCount - 1 }
  reconnectIdList := reconnectIdList
  freed := []
  next := if se.ioCount - 1 = 0 then some (.releaseSession caller) else next

/-- **One operation of a thread on the session `sid`**, `none` where it crashes. `ok` is the answer
of `WSASend` and `WSARecv`; a `socket` or `setsockopt` that fails is not followed. -/
def execOp (cfg : Config) (op : Op) (ok : Bool) (sid : ℕ) (se : Session) (ids : List ℕ) :
    Option Outcome :=
  match op with
  | .enqueue packet =>
    some ⟨{ se with sendQ := se.sendQ ++ [packet] }, ids, [], some (.sendPostCas .sendPacketImpl)⟩
  | .sendPostCas c =>
    match se.ioMode with
    | .sending => some ⟨se, ids, [], c.resume .complete⟩
    | .nonSending => some ⟨{ se with ioMode := .sending }, ids, [], some (.getRestSize c)⟩
  | .getRestSize c =>
    if se.sendQ.length = 0 then some ⟨se, ids, [], some (.resetMode c)⟩
    else some ⟨se, ids, [], some (.dequeue c (min se.sendQ.length iocpOneSendWsabufMax) [])⟩
  | .resetMode c => some ⟨{ se with ioMode := .nonSending }, ids, [], some (.recheckRestSize c)⟩
  | .recheckRestSize c =>
    if 0 < se.sendQ.length then some ⟨se, ids, [], some (.sendPostCas c)⟩
    else some ⟨se, ids, [], c.resume .complete⟩
  | .dequeue c useSize wsaSendBuf =>
    if wsaSendBuf.length < useSize then
      match se.sendQ with
      | packet :: sendQ =>
        some ⟨{ se with
            sendQ := sendQ
            serializeBufStore :=
              Function.update se.serializeBufStore wsaSendBuf.length (some packet) },
          ids, [], some (.dequeue c useSize (wsaSendBuf ++ [packet]))⟩
      | [] =>
        -- an empty queue leaves the entry of the store as it was
        (se.serializeBufStore wsaSendBuf.length).map fun packet =>
          ⟨se, ids, [], some (.dequeue c useSize (wsaSendBuf ++ [packet]))⟩
    else some ⟨se, ids, [], some (.setBufferCount c wsaSendBuf)⟩
  | .setBufferCount c wsaSendBuf =>
    some ⟨{ se with lBufferCount := wsaSendBuf.length }, ids, [], some (.countSend c wsaSendBuf)⟩
  | .countSend c wsaSendBuf =>
    some ⟨{ se with ioCount := se.ioCount + 1 }, ids, [], some (.wsaSend c wsaSendBuf)⟩
  | .wsaSend c wsaSendBuf =>
    if ok = true ∧ se.connected = true then
      some ⟨{ se with posted := se.posted ++ [.send wsaSendBuf] }, ids, [],
        some (.sendPostCas c)⟩
    else some (decrement se ids c (c.resume .err))
  | .recvPost c =>
    if cfg.ringCapacity ≤ se.ringBuffer.length then some (decrement se ids c (c.resume .err))
    else some ⟨se, ids, [], some (.countRecv c)⟩
  | .countRecv c => some ⟨{ se with ioCount := se.ioCount + 1 }, ids, [], some (.wsaRecv c)⟩
  | .wsaRecv c =>
    if ok = true ∧ se.connected = true then
      some ⟨{ se with posted := se.posted ++ [.recv] }, ids, [], c.resume .complete⟩
    else some (decrement se ids c (c.resume .err))
  | .releaseSession c => some ⟨se, ids, [], some (.readRestSize c se.lBufferCount)⟩
  | .readRestSize c n => some ⟨se, ids, [], some (.freeStored c n 0 se.sendQ.length)⟩
  | .freeStored c n i rest =>
    if i < n then
      -- a null pointer among the first `n` entries would crash
      (se.serializeBufStore i).map fun packet =>
        ⟨se, ids, [packet], some (.freeStored c n (i + 1) rest)⟩
    else some ⟨se, ids, [], some (.freeQueued c rest none)⟩
  | .freeQueued c 0 _ => some ⟨se, ids, [], some (.closeSocket c)⟩
  | .freeQueued c (rest + 1) deleteBuf =>
    match se.sendQ with
    | packet :: sendQ =>
      some ⟨{ se with sendQ := sendQ }, ids, [packet], some (.freeQueued c rest (some packet))⟩
    | [] =>
      -- `DeleteBuf` still is the buffer of the round before, or was never set
      deleteBuf.map fun packet => ⟨se, ids, [packet], some (.freeQueued c rest deleteBuf)⟩
  | .closeSocket c =>
    some ⟨{ se with connected := false }, ids, [],
      if cfg.isReconnect then some (.invalidateSocket c) else c.resume .errSessionDeleted⟩
  | .invalidateSocket c =>
    some ⟨{ se with connected := false }, ids, [], some (.pushReconnect c)⟩
  | .pushReconnect c => some ⟨se, ids ++ [sid], [], c.resume .errSessionDeleted⟩
  | .recvCompleted data =>
    some ⟨{ se with ringBuffer := (recvCompleted se.ringBuffer data).rest }, ids, [],
      some (.recvPost .worker)⟩
  | .sendCompleted => some ⟨se, ids, [], some (.freeSent se.lBufferCount 0)⟩
  | .freeSent n i =>
    if i < n then
      (se.serializeBufStore i).map fun packet => ⟨se, ids, [packet], some (.freeSent n (i + 1))⟩
    else some ⟨se, ids, [], some (.subtractCount n)⟩
  | .subtractCount n =>
    some ⟨{ se with lBufferCount := se.lBufferCount - n }, ids, [], some .resetSending⟩
  | .resetSending =>
    some ⟨{ se with ioMode := .nonSending }, ids, [], some (.sendPostCas .worker)⟩
  | .workerEnd => some (decrement se ids .worker none)
  | .newSocket => some ⟨{ se with connected := false }, ids, [], some .connect⟩
  | .connect => some ⟨{ se with connected := true }, ids, [], some (.recvPost .reconnecter)⟩
  | .popFront => some ⟨se, ids.tail, [], none⟩

/-- The operation a worker begins a completion with. A receive of nothing only gives the reference
back. -/
def Completion.op : Completion → Op
  | .recv data => if data = [] then .workerEnd else .recvCompleted data
  | .send _ => .sendCompleted

/-! ## Threads and steps -/

/-- What a thread is for. -/
inductive Role
  | start
  | sender
  | worker
  | reconnecter
  deriving DecidableEq, Repr

/-- A thread, the session it works on and where it is there. -/
structure Thread where
  role : Role
  session : ℕ
  op : Option Op
  deriving DecidableEq, Repr

/-- The state of the client. -/
structure State where
  session : ℕ → Session
  threads : List Thread
  reconnectIdList : List ℕ
  channelSelector : UInt64
  /-- How many buffers `SendPacket` was called with. -/
  nextSerial : ℕ
  /-- `m_sessionIdGenerator`: `Start` has connected the sessions below it. -/
  sessionIdGenerator : ℕ
  /-- `Start` has returned. -/
  started : Bool
  crashed : Bool

/-- The steps. The first argument of a thread's step is its place in `threads`. -/
inductive Event
  | startSession (i : ℕ)
  | startReturn (i : ℕ)
  | sendPacket (i : ℕ) (fixedId : Option UInt64)
  | complete (sid : ℕ) (k : ℕ) (data : List UInt8)
  | getQueuedCompletion (i : ℕ) (sid : ℕ) (k : ℕ)
  | reconnect (i : ℕ)
  | exec (i : ℕ) (ok : Bool)
  deriving DecidableEq, Repr

/-- The session `sid` replaced. -/
def State.setSession (s : State) (sid : ℕ) (se : Session) : State :=
  { s with session := Function.update s.session sid se }

/-- The thread at place `i` sent to an operation of the session `sid`. -/
def State.goTo (s : State) (i : ℕ) (t : Thread) (sid : ℕ) (op : Option Op) : State :=
  { s with threads := s.threads.set i { t with session := sid, op := op } }

/-- `Start` connects the next session and enters `RecvPost`. -/
def startSession (cfg : Config) (s : State) (i : ℕ) (t : Thread) : Option State :=
  let sid := s.sessionIdGenerator
  if t.role = .start ∧ t.op = none ∧ sid < cfg.numOfSession then
    let se := s.session sid
    some { (s.setSession sid { se with lBufferCount := 0, ioMode := .nonSending,
                                       connected := true }).goTo i t sid
             (some (.recvPost .start)) with
           sessionIdGenerator := sid + 1 }
  else none

/-- `Start` returns. The server begins to send packets only then. -/
def startReturn (cfg : Config) (s : State) (t : Thread) : Option State :=
  if t.role = .start ∧ t.op = none ∧ s.sessionIdGenerator = cfg.numOfSession then
    some { s with started := true }
  else none

/-- `GetChannelId` and `GetFixedChannelId`: the channel, and `m_channelSelector` after the call.
`none` is a division by zero. -/
def getChannelId (cfg : Config) (channelSelector : UInt64) : Option UInt64 → Option ℕ × UInt64
  | none =>
    let selected := channelSelector + 1
    (if cfg.numOfWorkerThread = 0 then none else some (selected.toNat % cfg.numOfWorkerThread),
      selected)
  | some fixedId =>
    (if cfg.numOfUsingWorkerThread = 0 then none
      else some (fixedId.toNat % cfg.numOfUsingWorkerThread), channelSelector)

/-- A thread calls `SendPacket` with a buffer of its own. A channel `sessionList` does not have
crashes. -/
def sendPacket (cfg : Config) (s : State) (i : ℕ) (t : Thread) (fixedId : Option UInt64) :
    Option State :=
  if t.role = .sender ∧ t.op = none ∧ s.started = true then
    let c := getChannelId cfg s.channelSelector fixedId
    match c.1 with
    | none => some { s with crashed := true }
    | some sid =>
      if sid < cfg.numOfSession then
        some { s.goTo i t sid (some (.enqueue ⟨s.nextSerial, fixedId⟩)) with
               nextSerial := s.nextSerial + 1, channelSelector := c.2 }
      else some { s with crashed := true }
  else none

/-- The kernel finishes the `k`-th posted operation of a session. What it received went into the
free part of the ring. -/
def complete (cfg : Config) (s : State) (sid k : ℕ) (data : List UInt8) : Option State :=
  let se := s.session sid
  let finish (c : Completion) : State :=
    s.setSession sid { se with posted := se.posted.eraseIdx k, completed := se.completed ++ [c] }
  se.posted[k]?.bind fun
    | .recv =>
      if se.ringBuffer.length + data.length ≤ cfg.ringCapacity then some (finish (.recv data))
      else none
    | .send wsaSendBuf => some (finish (.send wsaSendBuf))

/-- `GetQueuedCompletionStatus` gives a worker the `k`-th completion of a session. -/
def getQueuedCompletion (s : State) (i : ℕ) (t : Thread) (sid k : ℕ) : Option State :=
  if t.role = .worker ∧ t.op = none then
    (s.session sid).completed[k]?.map fun c =>
      (s.setSession sid { s.session sid with
        completed := (s.session sid).completed.eraseIdx k }).goTo i t sid (some c.op)
  else none

/-- `Reconnecter` reads the front of `sessionReconnectIdList`. -/
def reconnect (s : State) (i : ℕ) (t : Thread) : Option State :=
  if t.role = .reconnecter ∧ t.op = none then
    s.reconnectIdList.head?.map fun sid => s.goTo i t sid (some .newSocket)
  else none

/-- A thread executes its operation. One that crashes changes nothing else. -/
def exec (cfg : Config) (s : State) (i : ℕ) (t : Thread) (ok : Bool) : Option State :=
  t.op.map fun op =>
    match execOp cfg op ok t.session (s.session t.session) s.reconnectIdList with
    | none => { s with crashed := true }
    | some o =>
      { (s.setSession t.session o.session).goTo i t t.session o.next with
        reconnectIdList := o.reconnectIdList }

/-- **One step of the client.** -/
def step (cfg : Config) (s : State) (e : Event) : Option State :=
  if s.crashed then none
  else
    match e with
    | .startSession i => s.threads[i]?.bind fun t => startSession cfg s i t
    | .startReturn i => s.threads[i]?.bind fun t => startReturn cfg s t
    | .sendPacket i fixedId => s.threads[i]?.bind fun t => sendPacket cfg s i t fixedId
    | .complete sid k data => complete cfg s sid k data
    | .getQueuedCompletion i sid k => s.threads[i]?.bind fun t => getQueuedCompletion s i t sid k
    | .reconnect i => s.threads[i]?.bind fun t => reconnect s i t
    | .exec i ok => s.threads[i]?.bind fun t => exec cfg s i t ok

/-- An idle thread. -/
def Thread.idle (role : Role) : Thread := ⟨role, 0, none⟩

/-- The client before `Start`, with any number of sending threads. -/
def initialState (cfg : Config) (senders : ℕ) : State where
  session := fun _ => Session.new
  threads := Thread.idle .start :: Thread.idle .reconnecter ::
    (List.replicate cfg.numOfWorkerThread (Thread.idle .worker) ++
      List.replicate senders (Thread.idle .sender))
  reconnectIdList := []
  channelSelector := 0
  nextSerial := 0
  sessionIdGenerator := 0
  started := false
  crashed := false

/-- **The client as a transition system.** -/
def system (cfg : Config) : System State Event where
  Init s := ∃ senders, s = initialState cfg senders
  step := step cfg

/-- One channel, reconnected when it is lost, with a ring of eight bytes. -/
def oneChannel : Config where
  numOfWorkerThread := 1
  numOfUsingWorkerThread := 1
  numOfSession := 1
  isReconnect := true
  ringCapacity := 8

/-- The next `n` operations of the thread `i`, the kernel answering yes. -/
def execs (i n : ℕ) : List Event := List.replicate n (.exec i true)

/-- `Start` connects the channel and posts its first receive. The threads are `Start`,
`Reconnecter`, the worker and the senders. -/
def startRun : List Event := .startSession 0 :: execs 0 3 ++ [.startReturn 0]

/-- The server closes the connection of the channel, and the worker releases it. -/
def lostRun : List Event :=
  startRun ++ .complete 0 0 [] :: .getQueuedCompletion 2 0 0 :: execs 2 8

end MultiLanClient

end DdingGameServer
