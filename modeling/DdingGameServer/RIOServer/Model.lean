import Mathlib.Data.Finset.Insert
import Mathlib.Data.Finset.Erase
import Mathlib.Logic.Function.Basic
import DdingGameServer.Common.System
/-!
# RIOServer — sessions, threads and their atomic steps

The accepter, the worker threads and any number of sender threads run the functions of
`RIOServer.cpp` over shared sessions. A thread is the list of atomic operations it still has to
execute: executing the first one changes the shared state and puts the operations it leads to in
front of the rest, so that a call is a push and a return is a pop. One operation is one access to
shared memory (an interlocked instruction, a section under a lock, a queue operation, a call into
the kernel); what a thread does on its own data between two of them is part of the first.

The kernel completes posted requests whenever it likes and with whatever bytes it likes. A worker
that finds nothing completed and an `accept` that fails take no step. A `SessionId` is a natural
number: the ids are taken not to wrap.
-/

namespace DdingGameServer

namespace RIOServer

/-- `MAX_SEND_BUFFER_SIZE` of `DefineType.h`. -/
def maxSendBufferSize : ℕ := 16384

abbrev SessionId := ℕ

/-- The content of a `NetBuffer`, header included; its length is `GetAllUseSize`. -/
abbrev NetBuffer := List UInt8

/-- `RIO_OPERATION_TYPE`. -/
inductive RioOperationType
  | opError
  | opRecv
  | opSend
  | opSendRequest
  deriving DecidableEq, Repr

/-- `IO_MODE`. -/
inductive IoMode
  | ioNoneSending
  | ioSending
  deriving DecidableEq, Repr

/-- `IO_POST_ERROR`. -/
inductive IoPostError
  | success
  | isDeletedSession
  | failedRecvPost
  | failedSendPost
  | invalidOperationType
  | invalidSendBufferSize
  deriving DecidableEq, Repr

/-- What `NetServerSerializeBuffer.h` and the option file fix: the size of a frame header, the
largest payload, the header code, and `Decode`, which answers `none` where the code's answers
`false`. -/
structure NetConfig where
  /-- `df_HEADER_SIZE`. -/
  headerSize : ℕ
  /-- `dfDEFAULTSIZE`. -/
  defaultSize : ℕ
  /-- `NetBuffer::m_byHeaderCode`. -/
  headerCode : UInt8
  /-- `NetBuffer::Decode`, on a frame's header and payload. -/
  decode : List UInt8 → List UInt8 → Option (List UInt8)

/-- An `IOContext`: which object of the pool it is, and what `InitContext` writes into it. -/
structure IOContext where
  context : ℕ
  ownerSessionId : SessionId
  ioType : RioOperationType
  deriving DecidableEq, Repr

/-- A `RIOSession`, with the kernel's request queue of its socket. -/
structure RIOSession where
  threadId : ℕ
  sendDisconnect : Bool
  /-- Read by `GetIOCompletedContext`; no function of the source sets it. -/
  ioCancle : Bool
  ioCount : ℤ
  /-- The bytes in the receive ring, oldest first. -/
  recvBuffer : List UInt8
  rioRecvOffset : UInt32
  /-- `recvBuffer` and `sendBuffer` are out of their pools, taken by `InitSession` and not yet
  given back by `OnSessionReleased`. -/
  holdsBuffers : Bool
  sendQueue : List NetBuffer
  reservedBuffer : Option NetBuffer
  ioMode : IoMode
  /-- The requests the kernel still works on. -/
  posted : List IOContext
  /-- The finished ones that no worker has taken from its completion queue, with their bytes. -/
  completed : List (IOContext × List UInt8)
  /-- History: how often the body of `ReleaseSession` was entered. -/
  releases : ℕ
  /-- History: the packets of the streams handed to `RIOSend`, in order. -/
  handed : List NetBuffer
  deriving DecidableEq, Repr

/-- A session as its constructor leaves it, on the worker `threadId`. -/
def RIOSession.new (threadId : ℕ) : RIOSession where
  threadId := threadId
  sendDisconnect := false
  ioCancle := false
  ioCount := 0
  recvBuffer := []
  rioRecvOffset := 0
  holdsBuffers := false
  sendQueue := []
  reservedBuffer := none
  ioMode := .ioNoneSending
  posted := []
  completed := []
  releases := 0
  handed := []

/-- The session `MakeNewSession` has counted its own reference on, after `InitSession` took its
two buffers: `ring` are the bytes the receive ring still holds from the session that had it last. -/
def initSession (threadId : ℕ) (ring : List UInt8) : RIOSession :=
  { RIOSession.new threadId with ioCount := 1, holdsBuffers := true, recvBuffer := ring }

/-! ## Receiving frames -/

/-- What `RecvCompleted` makes of the ring: the payloads it hands to `OnRecvPacket`, the bytes it
leaves in the ring, and `packetError`. -/
structure RecvResult where
  packets : List (List UInt8)
  rest : List UInt8
  packetError : Bool
  deriving DecidableEq, Repr

/-- `GetPayloadLength`, on the peeked bytes: the code byte, then the length as a `WORD`. -/
def getPayloadLength (cfg : NetConfig) (ring : List UInt8) : ℕ :=
  let code := ring.getD 0 0
  let payloadLength := (ring.getD 1 0).toNat + 256 * (ring.getD 2 0).toNat
  if code ≠ cfg.headerCode then 0
  else if ring.length < payloadLength + cfg.headerSize then 0
  else payloadLength

/-- The loop of `RecvCompleted`. A round that goes on removes a header and at least one byte, so
the ring's own length is fuel enough. -/
def recvLoop (cfg : NetConfig) : ℕ → List UInt8 → RecvResult
  | 0, ring => ⟨[], ring, false⟩
  | fuel + 1, ring =>
    if ring.length ≤ cfg.headerSize then ⟨[], ring, false⟩
    else
      let payloadLength := getPayloadLength cfg ring
      if payloadLength = 0 then ⟨[], ring, false⟩
      else if cfg.defaultSize < payloadLength then ⟨[], ring, true⟩
      else
        let payload := (ring.drop cfg.headerSize).take payloadLength
        let rest := (ring.drop cfg.headerSize).drop payloadLength
        match cfg.decode (ring.take cfg.headerSize) payload with
        | none => ⟨[], rest, true⟩
        | some packet =>
          let r := recvLoop cfg fuel rest
          ⟨packet :: r.packets, r.rest, r.packetError⟩

/-- `IsValidPacketSize`. -/
def isValidPacketSize (bufferSize : ℕ) : Bool := bufferSize < maxSendBufferSize

/-- `session.sendItem.sendBuffer->rioSendBuffer == nullptr`: `rioSendBuffer` is an array inside
the send buffer, and its address is not null. -/
def rioSendBufferIsNull : Bool := false

/-! ## Operations -/

/-- The atomic operations, in the order of the source's functions. -/
inductive Op
  -- `MakeNewSession` and `Accepter`
  | incWorkerCount
  | emplaceSession
  | onSessionEntered
  | incSessionCount
  -- `RecvPost`
  | rioReceive
  | countRecv
  -- `IOCountDecrement` and `ReleaseSession`
  | ioCountDecrement
  | onSessionLeaved
  | closeSocket
  | decWorkerCount
  | decSessionCount
  | eraseSession
  | onSessionReleased
  -- `Worker`, `GetIOCompletedContext` and `IOCompleted`
  | getIOCompletedContext (context : IOContext) (data : List UInt8)
  | invalidIOCompleted (context : IOContext)
  | recvCompleted (data : List UInt8)
  | onRecvPacket (packet : List UInt8)
  | releaseOnError (packetError : Bool)
  | sendIOCompleted
  | sendCompleted
  | workerTail (context : IOContext)
  -- `SendPacket`, `SendPacketAndDisconnect` and `SendPost`
  | setSendDisconnect
  | enqueue (packet : NetBuffer)
  | sendPostCas
  | sendPostCheck
  | sendPostReset
  | sendPostRecheck
  | makeSendStream
  -- `copied` are the packets it has taken for the stream, wherever it copies their bytes to
  | streamLoop (context : ℕ) (count : ℕ) (totalSendSize : ℕ) (copied : List NetBuffer)
  | countSend (context : ℕ) (copied : List NetBuffer)
  | rioSend (context : ℕ) (copied : List NetBuffer)
  deriving DecidableEq, Repr

/-- The body of `ReleaseSession`. -/
def releaseSession : List Op :=
  [.closeSocket, .decWorkerCount, .decSessionCount, .eraseSession, .onSessionReleased]

/-- `RecvPost`, up to the answer of `RIOReceive`. -/
def recvPost : List Op := [.rioReceive]

/-- `SendPost`, up to its compare-exchange. -/
def sendPost : List Op := [.sendPostCas]

/-- `MakeNewSession` from the point where the session is initialised, up to the `emplace`. -/
def makeNewSession : List Op := [.incWorkerCount, .emplaceSession]

/-- `MakeNewSession` after a successful `emplace`, and the increment `Accepter` makes after it. -/
def enterNewSession : List Op :=
  recvPost ++ [.ioCountDecrement, .onSessionEntered, .incSessionCount]

/-- `RIOServer::SendPacket`. -/
def sendPacket (packet : NetBuffer) : List Op := .enqueue packet :: sendPost

/-- What the threads share beside the sessions themselves. -/
structure Shared where
  sessionMap : Finset SessionId
  sessionCount : ℤ
  numOfSessionInWorkerThread : List ℤ
  /-- `Broadcaster::sessionIdSet`. -/
  sessionIdSet : Finset SessionId
  /-- The contexts allocated from `contextPool` and not freed. -/
  contextPool : Finset ℕ
  /-- The next context `contextPool` hands out. -/
  nextContext : ℕ
  /-- `g_Dump.Crash()` was called, or memory was misused: the process is gone. -/
  crashed : Bool
  deriving DecidableEq

/-- What one operation does: the new shared state, the new session, the operations it leads to,
and the `IO_POST_ERROR` the thread now carries. -/
structure Outcome where
  shared : Shared
  session : RIOSession
  code : List Op
  result : IoPostError

/-- `contextPool.Free`. -/
def Shared.freeContext (sh : Shared) (context : ℕ) : Shared :=
  { sh with contextPool := sh.contextPool.erase context }

/-- `contextPool.Alloc`. -/
def Shared.allocContext (sh : Shared) : Shared :=
  { sh with contextPool := insert sh.nextContext sh.contextPool, nextContext := sh.nextContext + 1 }

/-- **One operation of a thread on the session `sid`.** `ok` is the kernel's answer to
`RIOReceive` and `RIOSend`; `replies` are the packets a packet handler sends on its session. -/
def execOp (cfg : NetConfig) (op : Op) (ok : Bool) (replies : List NetBuffer) (sid : SessionId)
    (sh : Shared) (se : RIOSession) (res : IoPostError) : Outcome :=
  match op with
  | .incWorkerCount =>
    ⟨{ sh with numOfSessionInWorkerThread :=
        sh.numOfSessionInWorkerThread.modify se.threadId (· + 1) }, se, [], res⟩
  | .emplaceSession =>
    if sid ∈ sh.sessionMap then
      -- the id is taken, which ids that do not wrap exclude: `MakeNewSession` gives its reference
      -- back, releases the session and returns `false`
      ⟨sh, se, .ioCountDecrement :: releaseSession, res⟩
    else ⟨{ sh with sessionMap := insert sid sh.sessionMap }, se, enterNewSession, res⟩
  | .onSessionEntered => ⟨{ sh with sessionIdSet := insert sid sh.sessionIdSet }, se, [], res⟩
  | .incSessionCount => ⟨{ sh with sessionCount := sh.sessionCount + 1 }, se, [], res⟩
  | .rioReceive =>
    if ok then
      ⟨sh.allocContext, { se with posted := se.posted ++ [⟨sh.nextContext, sid, .opRecv⟩] },
        [.countRecv], res⟩
    else ⟨sh.allocContext, se, [], .failedRecvPost⟩
  | .countRecv => ⟨sh, { se with ioCount := se.ioCount + 1 }, [], .success⟩
  | .ioCountDecrement =>
    ⟨sh, { se with ioCount := se.ioCount - 1 },
      if se.ioCount - 1 = 0 then .onSessionLeaved :: releaseSession else [], res⟩
  | .onSessionLeaved => ⟨{ sh with sessionIdSet := sh.sessionIdSet.erase sid }, se, [], res⟩
  | .closeSocket => ⟨sh, { se with releases := se.releases + 1 }, [], res⟩
  | .decWorkerCount =>
    ⟨{ sh with numOfSessionInWorkerThread :=
        sh.numOfSessionInWorkerThread.modify se.threadId (· - 1) }, se, [], res⟩
  | .decSessionCount => ⟨{ sh with sessionCount := sh.sessionCount - 1 }, se, [], res⟩
  | .eraseSession => ⟨{ sh with sessionMap := sh.sessionMap.erase sid }, se, [], res⟩
  | .onSessionReleased => ⟨sh, { se with holdsBuffers := false }, [], res⟩
  | .getIOCompletedContext c data =>
    if sid ∈ sh.sessionMap then
      if data = [] ∨ se.ioCancle = true then ⟨sh.freeContext c.context, se, [.ioCountDecrement], res⟩
      else
        match c.ioType with
        | .opRecv => ⟨sh, se, [.recvCompleted data, .workerTail c], res⟩
        | .opSend => ⟨sh, se, [.sendIOCompleted, .workerTail c], res⟩
        -- `INVALID_OPERATION_TYPE` sends the worker straight to its next completion
        | .opError => ⟨sh, se, [.invalidIOCompleted c], res⟩
        | .opSendRequest => ⟨sh, se, [.invalidIOCompleted c], res⟩
    else ⟨sh.freeContext c.context, se, [], res⟩
  | .invalidIOCompleted c =>
    ⟨sh.freeContext c.context, se, if sid ∈ sh.sessionMap then [.ioCountDecrement] else [], res⟩
  | .recvCompleted data =>
    let ring := se.recvBuffer ++ data
    let r := recvLoop cfg ring.length ring
    ⟨sh, { se with recvBuffer := r.rest,
                   rioRecvOffset := se.rioRecvOffset + UInt32.ofNat data.length },
      r.packets.map .onRecvPacket ++ recvPost ++ [.releaseOnError r.packetError], res⟩
  | .onRecvPacket _ => ⟨sh, se, replies.flatMap sendPacket, res⟩
  | .releaseOnError packetError => ⟨sh, se, if packetError then releaseSession else [], res⟩
  | .sendIOCompleted => ⟨sh, { se with ioMode := .ioNoneSending }, [.sendCompleted], res⟩
  | .sendCompleted =>
    -- `Disconnect` only shuts the socket down, which the kernel answers by completions
    if se.sendDisconnect then ⟨sh, se, [], .success⟩ else ⟨sh, se, sendPost, res⟩
  | .workerTail c =>
    if res = .invalidOperationType then ⟨sh, se, [], res⟩
    else if res = .isDeletedSession then ⟨sh.freeContext c.context, se, [], res⟩
    else ⟨sh.freeContext c.context, se, [.ioCountDecrement], res⟩
  | .setSendDisconnect => ⟨sh, { se with sendDisconnect := true }, [], res⟩
  | .enqueue packet => ⟨sh, { se with sendQueue := se.sendQueue ++ [packet] }, [], res⟩
  | .sendPostCas =>
    match se.ioMode with
    | .ioSending => ⟨sh, se, [], .success⟩
    | .ioNoneSending => ⟨sh, { se with ioMode := .ioSending }, [.sendPostCheck], res⟩
  | .sendPostCheck =>
    if se.sendQueue.length = 0 ∧ rioSendBufferIsNull = true then ⟨sh, se, [.sendPostReset], res⟩
    else ⟨sh, se, [.makeSendStream], res⟩
  | .sendPostReset => ⟨sh, { se with ioMode := .ioNoneSending }, [.sendPostRecheck], res⟩
  | .sendPostRecheck =>
    if 0 < se.sendQueue.length then ⟨sh, se, sendPost, res⟩ else ⟨sh, se, [], .success⟩
  | .makeSendStream =>
    match se.reservedBuffer with
    | none =>
      ⟨sh.allocContext, se, [.streamLoop sh.nextContext se.sendQueue.length 0 []], res⟩
    | some b =>
      -- a packet too large crashes the process (`USE_CRASH_SEND_BUFFER_OVER`)
      if isValidPacketSize b.length then
        ⟨sh.allocContext, { se with reservedBuffer := none },
          [.streamLoop sh.nextContext se.sendQueue.length b.length [b]], res⟩
      else ⟨{ sh.allocContext with crashed := true }, se, [], res⟩
  | .streamLoop ctx 0 totalSendSize copied =>
    if totalSendSize = 0 then ⟨sh, se, [], .invalidSendBufferSize⟩
    else ⟨sh, se, [.countSend ctx copied], res⟩
  | .streamLoop ctx (count + 1) totalSendSize copied =>
    match se.sendQueue with
    -- nothing to dequeue leaves `netBufferPtr` dangling
    | [] => ⟨{ sh with crashed := true }, se, [], res⟩
    | b :: sendQueue =>
      if isValidPacketSize b.length then
        if maxSendBufferSize ≤ totalSendSize + b.length then
          -- the packet is kept for the next stream, with its size already in the total
          ⟨sh, { se with sendQueue := sendQueue, reservedBuffer := some b },
            [.countSend ctx copied], res⟩
        else
          ⟨sh, { se with sendQueue := sendQueue },
            [.streamLoop ctx count (totalSendSize + b.length) (copied ++ [b])], res⟩
      else ⟨{ sh with crashed := true }, { se with sendQueue := sendQueue }, [], res⟩
  | .countSend ctx copied => ⟨sh, { se with ioCount := se.ioCount + 1 }, [.rioSend ctx copied], res⟩
  | .rioSend ctx copied =>
    if ok then
      ⟨sh, { se with posted := se.posted ++ [⟨ctx, sid, .opSend⟩], handed := se.handed ++ copied },
        sendPost, res⟩
    else ⟨sh, se, [.ioCountDecrement], .failedSendPost⟩

/-! ## Threads and steps -/

/-- What a thread is for: the accepter, the worker of one completion queue, or any other thread
that sends packets. -/
inductive Role
  | accepter
  | worker (threadId : ℕ)
  | sender
  deriving DecidableEq, Repr

/-- A thread: its role, the session it works on, the result it carries, and the operations it
still has to execute. -/
structure Thread where
  role : Role
  session : SessionId
  result : IoPostError
  code : List Op
  deriving DecidableEq, Repr

/-- The state of the server. -/
structure State where
  shared : Shared
  nextSessionId : SessionId
  session : SessionId → RIOSession
  threads : List Thread

/-- The steps. The first argument of a thread's step is its place in `threads`; the last two of
`exec` are the ones of `execOp`. -/
inductive Event
  | accept (i : ℕ) (threadId : ℕ) (ring : List UInt8) (ok : Bool)
  | getSession (i : ℕ) (sid : SessionId)
  | sendPacket (i : ℕ) (packet : NetBuffer)
  | sendPacketAndDisconnect (i : ℕ) (packet : NetBuffer)
  | complete (sid : SessionId) (k : ℕ) (data : List UInt8)
  | dequeue (i : ℕ) (sid : SessionId) (k : ℕ)
  | exec (i : ℕ) (ok : Bool) (replies : List NetBuffer)
  deriving DecidableEq, Repr

/-- The session `sid` replaced. -/
def State.setSession (s : State) (sid : SessionId) (se : RIOSession) : State :=
  { s with session := Function.update s.session sid se }

/-- The thread at place `i` replaced. -/
def State.setThread (s : State) (i : ℕ) (t : Thread) : State :=
  { s with threads := s.threads.set i t }

/-- The session id `GetNewSession` draws. -/
def State.newSessionId (s : State) : SessionId := s.nextSessionId + 1

/-- The accepter enters `MakeNewSession`. `threadId` is the answer of `GetMinimumSessionThreadId`,
whose scan of the counters is not atomic, so any worker may be the answer. Where `InitSession`
fails there is no session and the id is used up; so are the two buffers it has taken from the pools
by then, which is not followed. -/
def accept (s : State) (i : ℕ) (t : Thread) (threadId : ℕ) (ring : List UInt8) (ok : Bool) :
    Option State :=
  if t.role = .accepter ∧ t.code = [] ∧ threadId < s.shared.numOfSessionInWorkerThread.length then
    if ok then
      some { (s.setSession s.newSessionId (initSession threadId ring)).setThread i
              { t with session := s.newSessionId, code := makeNewSession } with
             nextSessionId := s.newSessionId }
    else some { s with nextSessionId := s.newSessionId }
  else none

/-- A thread that is neither the accepter nor a worker finds the session in the map and keeps
it. -/
def getSession (s : State) (i : ℕ) (t : Thread) (sid : SessionId) : Option State :=
  if t.role = .sender ∧ t.code = [] ∧ sid ∈ s.shared.sessionMap then
    some (s.setThread i { t with session := sid })
  else none

/-- Such a thread calls a sending function of the session it keeps. -/
def call (s : State) (i : ℕ) (t : Thread) (code : List Op) : Option State :=
  if t.role = .sender ∧ t.code = [] ∧ t.session ≠ 0 then some (s.setThread i { t with code := code })
  else none

/-- The kernel finishes the `k`-th posted request of a session. -/
def complete (s : State) (sid : SessionId) (k : ℕ) (data : List UInt8) : Option State :=
  (s.session sid).posted[k]?.map fun c =>
    s.setSession sid { s.session sid with
      posted := (s.session sid).posted.eraseIdx k
      completed := (s.session sid).completed ++ [(c, data)] }

/-- A worker takes the `k`-th completion of one of its sessions from its queue. -/
def dequeue (s : State) (i : ℕ) (t : Thread) (sid : SessionId) (k : ℕ) : Option State :=
  if t.role = .worker (s.session sid).threadId ∧ t.code = [] then
    (s.session sid).completed[k]?.map fun c =>
      (s.setSession sid { s.session sid with
        completed := (s.session sid).completed.eraseIdx k }).setThread i
        { t with session := sid, result := .success, code := [.getIOCompletedContext c.1 c.2] }
  else none

/-- A thread executes its next operation. -/
def exec (cfg : NetConfig) (s : State) (i : ℕ) (t : Thread) (ok : Bool)
    (replies : List NetBuffer) : Option State :=
  match t.code with
  | [] => none
  | op :: rest =>
    let o := execOp cfg op ok replies t.session s.shared (s.session t.session) t.result
    some { (s.setSession t.session o.session).setThread i
            { t with result := o.result, code := o.code ++ rest } with shared := o.shared }

/-- **One step of the server.** -/
def step (cfg : NetConfig) (s : State) (e : Event) : Option State :=
  if s.shared.crashed then none
  else
    match e with
    | .accept i threadId ring ok => s.threads[i]?.bind fun t => accept s i t threadId ring ok
    | .getSession i sid => s.threads[i]?.bind fun t => getSession s i t sid
    | .sendPacket i packet => s.threads[i]?.bind fun t => call s i t (sendPacket packet)
    | .sendPacketAndDisconnect i packet =>
      s.threads[i]?.bind fun t => call s i t (.setSendDisconnect :: sendPacket packet)
    | .complete sid k data => complete s sid k data
    | .dequeue i sid k => s.threads[i]?.bind fun t => dequeue s i t sid k
    | .exec i ok replies => s.threads[i]?.bind fun t => exec cfg s i t ok replies

/-- An idle thread. -/
def Thread.idle (role : Role) : Thread := ⟨role, 0, .success, []⟩

/-- The server before its first session, with `numOfWorkerThread` workers and `senders` other
threads. -/
def initialState (numOfWorkerThread senders : ℕ) : State where
  shared :=
    { sessionMap := ∅
      sessionCount := 0
      numOfSessionInWorkerThread := List.replicate numOfWorkerThread 0
      sessionIdSet := ∅
      contextPool := ∅
      nextContext := 0
      crashed := false }
  nextSessionId := 1
  session := fun _ => RIOSession.new 0
  threads := Thread.idle .accepter :: (List.range numOfWorkerThread).map (Thread.idle ∘ .worker) ++
    List.replicate senders (Thread.idle .sender)

/-- **The server as a transition system**, for any number of workers and senders. -/
def system (cfg : NetConfig) : System State Event where
  Init s := ∃ numOfWorkerThread senders, s = initialState numOfWorkerThread senders
  step := step cfg

/-- A configuration to run the model with: a five byte header whose last byte is the sum of the
payload, checked by `Decode`. -/
def checksumConfig : NetConfig where
  headerSize := 5
  defaultSize := 1000
  headerCode := 119
  decode header payload := if header.getD 4 0 = payload.foldl (· + ·) 0 then some payload else none

/-- The next `n` operations of the thread `i`, the kernel answering yes and packet handlers sending
nothing. -/
def execs (i n : ℕ) : List Event := List.replicate n (.exec i true [])

end RIOServer

end DdingGameServer
