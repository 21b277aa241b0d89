import DdingGameServer.RIOServer.RefCount
/-!
# RIOServer — outgoing buffers

The queues of the server hold pointers: a packet sent to one session is a `NetBuffer` of its own,
a broadcast puts one `NetBuffer` into the queues of all sessions. `NetBuffers` keeps the objects
beside the server, with their reference counts, and follows each of them through `sendQueue`,
`reservedBuffer` and the send stream; `Mirrors` says that they are the packets of the server. A
broadcast is a thread that walks through `sessionIdList` and sends to one session after the other.

`NetBuffer` is taken as reference counted: `Alloc` gives 1, `AddRefCount` adds 1, and `Free`
subtracts 1 and returns the buffer to its pool at 0. `IsReleasedSession` answers `false` always,
since no function sets the flag it reads.
-/

namespace DdingGameServer

namespace RIOServer

/-! ## The buffers -/

/-- Which object of the pool a `NetBuffer` is. -/
abbrev BufferId := ℕ

/-- A `BraodcastToAllSession` under way: its buffer, and what is left of `sessionIdList`. -/
structure Broadcasting where
  buffer : BufferId
  sessionIdList : List SessionId
  deriving DecidableEq, Repr

/-- The outgoing buffers of the server. -/
structure NetBuffers where
  refCount : BufferId → ℕ
  content : BufferId → NetBuffer
  /-- The next object `NetBuffer::Alloc` hands out. -/
  nextBuffer : BufferId
  /-- History: the buffers returned to the pool, in order. -/
  returned : List BufferId
  sendQueue : SessionId → List BufferId
  reservedBuffer : SessionId → Option BufferId
  /-- The broadcast each thread is in. -/
  broadcasts : ℕ → Option Broadcasting

def NetBuffers.empty : NetBuffers where
  refCount := fun _ => 0
  content := fun _ => []
  nextBuffer := 0
  returned := []
  sendQueue := fun _ => []
  reservedBuffer := fun _ => none
  broadcasts := fun _ => none

/-- `NetBuffer::Alloc`, with the packet that is then written into it. -/
def NetBuffers.alloc (n : NetBuffers) (packet : NetBuffer) : NetBuffers :=
  { n with
    refCount := Function.update n.refCount n.nextBuffer 1
    content := Function.update n.content n.nextBuffer packet
    nextBuffer := n.nextBuffer + 1 }

/-- `NetBuffer::AddRefCount`. -/
def NetBuffers.addRefCount (n : NetBuffers) (b : BufferId) : NetBuffers :=
  { n with refCount := Function.update n.refCount b (n.refCount b + 1) }

/-- `NetBuffer::Free`. -/
def NetBuffers.free (n : NetBuffers) (b : BufferId) : NetBuffers :=
  { n with
    refCount := Function.update n.refCount b (n.refCount b - 1)
    returned := if n.refCount b - 1 = 0 then n.returned ++ [b] else n.returned }

/-- `sendQueue.Enqueue`. -/
def NetBuffers.enqueue (n : NetBuffers) (sid : SessionId) (b : BufferId) : NetBuffers :=
  { n with sendQueue := Function.update n.sendQueue sid (n.sendQueue sid ++ [b]) }

/-- The thread `i` begins a broadcast, goes on in it, or ends it. -/
def NetBuffers.setBroadcast (n : NetBuffers) (i : ℕ) (broadcast : Option Broadcasting) :
    NetBuffers :=
  { n with broadcasts := Function.update n.broadcasts i broadcast }

/-- The stream of `streamLoop` has no room for the buffer. -/
def NetBuffers.overflows (n : NetBuffers) (b : BufferId) (totalSendSize : ℕ) : Bool :=
  isValidPacketSize (n.content b).length &&
    maxSendBufferSize ≤ totalSendSize + (n.content b).length

/-- **What an operation of the thread `i` on the session `sid` does to the buffers.** A thread that
broadcasts sends the buffer of its broadcast; any other packet gets a buffer of its own. Copying a
buffer into the send stream leaves its reference count as it is. -/
def NetBuffers.execOp (n : NetBuffers) (i : ℕ) (sid : SessionId) : Op → NetBuffers
  | .enqueue packet =>
    match n.broadcasts i with
    | some broadcast => n.enqueue sid broadcast.buffer
    | none => (n.alloc packet).enqueue sid n.nextBuffer
  | .makeSendStream =>
    match n.reservedBuffer sid with
    | none => n
    | some b =>
      if isValidPacketSize (n.content b).length then
        { n with reservedBuffer := Function.update n.reservedBuffer sid none }
      else n
  | .streamLoop _ (_ + 1) totalSendSize _ =>
    match n.sendQueue sid with
    | [] => n
    | b :: sendQueue =>
      { n with
        sendQueue := Function.update n.sendQueue sid sendQueue
        reservedBuffer := if n.overflows b totalSendSize then
          Function.update n.reservedBuffer sid (some b) else n.reservedBuffer }
  | _ => n

/-- The buffers after a step of the server. -/
def NetBuffers.follow (n : NetBuffers) (s : State) : Event → NetBuffers
  | .exec i ok replies =>
    match s.executing (.exec i ok replies) with
    | some (t, op, _) => n.execOp i t.session op
    | none => n
  | _ => n

/-! ## The server and its buffers -/

/-- The steps: those of the server, and what `BraodcastToAllSession` does between its sends. -/
inductive SendingEvent
  | server (e : Event)
  | broadcast (i : ℕ) (packet : NetBuffer)
  | broadcastTo (i : ℕ)
  | broadcastEnd (i : ℕ)
  deriving DecidableEq, Repr

/-- A thread inside `BraodcastToAllSession` makes no other call. -/
def NetBuffers.occupied (n : NetBuffers) : Event → Bool
  | .getSession i _ | .sendPacket i _ | .sendPacketAndDisconnect i _ => (n.broadcasts i).isSome
  | _ => false

/-- A thread that can call `BraodcastToAllSession`, or go on in it. -/
def State.ready (s : State) (i : ℕ) : Bool :=
  !s.shared.crashed && match s.threads[i]? with
  | some t => t.role = .sender && t.code = []
  | none => false

/-- `sessionIdSet`, in the order of its iterator. -/
def State.sessionIdList (s : State) : List SessionId :=
  (List.range (s.nextSessionId + 1)).filter (· ∈ s.shared.sessionIdSet)

/-- `BraodcastToAllSession`, up to the list of ids. -/
def NetBuffers.broadcast (n : NetBuffers) (i : ℕ) (packet : NetBuffer)
    (sessionIdList : List SessionId) : NetBuffers :=
  ((n.alloc packet).addRefCount n.nextBuffer).setBroadcast i (some ⟨n.nextBuffer, sessionIdList⟩)

/-- One round of `BraodcastToAllSession`: the next session, if it still is in the map, and a call of
`SendPacket` on it. -/
def broadcastTo (cfg : NetConfig) (s : State) (n : NetBuffers) (i : ℕ) :
    Broadcasting → Option (State × NetBuffers)
  | ⟨_, []⟩ => none
  | ⟨buffer, sid :: sessionIdList⟩ =>
    let n' := n.setBroadcast i (some ⟨buffer, sessionIdList⟩)
    if sid ∈ s.shared.sessionMap then
      ((system cfg).run s [.getSession i sid, .sendPacket i (n.content buffer)]).map fun s' =>
        (s', n')
    else some (s, n')

/-- The end of `BraodcastToAllSession`. -/
def NetBuffers.broadcastEnd (n : NetBuffers) (i : ℕ) : Broadcasting → Option NetBuffers
  | ⟨buffer, []⟩ => some ((n.free buffer).setBroadcast i none)
  | ⟨_, _ :: _⟩ => none

/-- **One step of the server and its buffers.** -/
def sendingStep (cfg : NetConfig) (x : State × NetBuffers) :
    SendingEvent → Option (State × NetBuffers)
  | .server e =>
    if x.2.occupied e then none
    else (step cfg x.1 e).map fun s' => (s', x.2.follow x.1 e)
  | .broadcast i packet =>
    if x.1.ready i ∧ x.2.broadcasts i = none then
      some (x.1, x.2.broadcast i packet x.1.sessionIdList)
    else none
  | .broadcastTo i =>
    if x.1.ready i then (x.2.broadcasts i).bind (broadcastTo cfg x.1 x.2 i) else none
  | .broadcastEnd i =>
    if x.1.ready i then
      ((x.2.broadcasts i).bind (x.2.broadcastEnd i)).map fun n => (x.1, n)
    else none

/-- **The server with its outgoing buffers.** -/
def sendingSystem (cfg : NetConfig) : System (State × NetBuffers) SendingEvent where
  Init x := (system cfg).Init x.1 ∧ x.2 = .empty
  step := sendingStep cfg

end RIOServer

end DdingGameServer
