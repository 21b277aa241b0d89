import DdingGameServer.RIOServer.Framing
import DdingGameServer.RIOServer.Dispatch
/-!
# RIOServer — from the bytes of a session to the handlers

`RecvCompleted` calls `OnRecvPacket` from inside its loop, on each frame as it is decoded. Nobody
between there and `Worker` catches what a handler throws, so an exception leaves the loop, the
worker's thread function and with it the process: the frames behind are never looked at. The
framing and the dispatch meet here. What the two of them make of a session is a matter of its
stream: the frames are handled in order up to the first whose id is registered, and that one ends
the process.
-/

namespace DdingGameServer

namespace RIOServer

open GameDB (PacketId)

universe u v

variable {Buf : Type u} {Fields : Type v} {α : Type}

/-- One thing after another, unless the first throws. -/
def andThen (first : HandlerOutcome Buf Fields Unit) (next : HandlerOutcome Buf Fields α) :
    HandlerOutcome Buf Fields α :=
  match first.2 with
  | .error e => (first.1, .error e)
  | .ok () => (first.1 ++ next.1, next.2)

theorem ok_andThen (next : HandlerOutcome Buf Fields α) : andThen ([], .ok ()) next = next := rfl

theorem andThen_assoc (a b : HandlerOutcome Buf Fields Unit) (c : HandlerOutcome Buf Fields α) :
    andThen (andThen a b) c = andThen a (andThen b c) := by
  obtain ⟨callsA, e | ⟨⟩⟩ := a
  · rfl
  · obtain ⟨callsB, e | ⟨⟩⟩ := b
    · rfl
    · simp only [andThen, List.append_assoc]

/-! ## The loop with its handlers -/

/-- The loop of `RecvCompleted`, with the calls of `OnRecvPacket` in it: the bytes it leaves in the
ring and `packetError`, unless it is left by an exception. -/
def serveRounds (cfg : NetConfig) (handle : List UInt8 → HandlerOutcome Buf Fields Unit) :
    ℕ → ℤ → List UInt8 → HandlerOutcome Buf Fields (List UInt8 × Bool)
  | 0, _, ring => ([], .ok (ring, false))
  | fuel + 1, restSize, ring =>
    if restSize ≤ cfg.headerSize then ([], .ok (ring, false))
    else
      let buffer := ring.take cfg.headerSize
      let payloadLength := peekedPayloadLength cfg buffer restSize
      if payloadLength = 0 then ([], .ok (ring, false))
      else if cfg.defaultSize < payloadLength then ([], .ok (ring, true))
      else
        let ring := ring.drop cfg.headerSize
        let payload := ring.take payloadLength
        let dequeuedSize := payload.length
        let ring := ring.drop payloadLength
        match cfg.decode buffer payload with
        | none => ([], .ok (ring, true))
        | some packet =>
          andThen (handle packet)
            (serveRounds cfg handle fuel (restSize - (dequeuedSize + cfg.headerSize)) ring)

/-- `RecvCompleted`, up to the next receive. -/
def serveCompleted (cfg : NetConfig) (handle : List UInt8 → HandlerOutcome Buf Fields Unit)
    (ring data : List UInt8) : HandlerOutcome Buf Fields (List UInt8 × Bool) :=
  let ring := ring ++ data
  let restSize := ring.length
  serveRounds cfg handle restSize restSize ring

/-- The completions of one session: the calls of `HandlePacket` they lead to, and whether one of
them raised `packetError`, unless an exception ends the process. -/
def serve (cfg : NetConfig) (handle : List UInt8 → HandlerOutcome Buf Fields Unit)
    (ring : List UInt8) : List (List UInt8) → HandlerOutcome Buf Fields Bool
  | [] => ([], .ok false)
  | data :: cut =>
    match serveCompleted cfg handle ring data with
    | (calls, .error e) => (calls, .error e)
    | (calls, .ok (_, true)) => (calls, .ok true)
    | (calls, .ok (ring, false)) => andThen (calls, .ok ()) (serve cfg handle ring cut)

/-- The packets of a list handled in order, up to the first exception. -/
def handleAll (handle : List UInt8 → HandlerOutcome Buf Fields Unit) :
    List (List UInt8) → HandlerOutcome Buf Fields Unit
  | [] => ([], .ok ())
  | packet :: packets => andThen (handle packet) (handleAll handle packets)

variable {cfg : NetConfig} {handle : List UInt8 → HandlerOutcome Buf Fields Unit}
  {ring data : List UInt8} {packets packets' cut : List (List UInt8)} {fuel : ℕ} {restSize : ℤ}
  {failed : Bool}

/-- What is handled in two goes is handled in one. -/
theorem handleAll_append : handleAll handle (packets ++ packets') =
    andThen (handleAll handle packets) (handleAll handle packets') := by
  induction packets with
  | nil => rfl
  | cons packet packets ih => rw [List.cons_append, handleAll, handleAll, ih, andThen_assoc]

/-- **The loop frames as it does without handlers, and handles what it frames.** -/
theorem serveRounds_eq : serveRounds cfg handle fuel restSize ring =
    andThen (handleAll handle (recvRounds cfg fuel restSize ring).packets)
      ([], .ok ((recvRounds cfg fuel restSize ring).rest,
        (recvRounds cfg fuel restSize ring).packetError)) := by
  induction fuel generalizing restSize ring with
  | zero => rfl
  | succ fuel ih =>
    simp only [serveRounds, recvRounds]
    split
    · rfl
    · split
      · rfl
      · split
        · rfl
        · cases cfg.decode (ring.take cfg.headerSize) ((ring.drop cfg.headerSize).take
              (peekedPayloadLength cfg (ring.take cfg.headerSize) restSize)) with
          | none => rfl
          | some packet => simp only [ih, handleAll, andThen_assoc]

/-- And so do the completions of a session. -/
theorem serve_eq : serve cfg handle ring cut =
    andThen (handleAll handle (receive cfg ring cut).1)
      ([], .ok (receive cfg ring cut).2) := by
  induction cut generalizing ring with
  | nil => rfl
  | cons data cut ih =>
    have hcompleted : serveCompleted cfg handle ring data =
        andThen (handleAll handle (recvCompleted cfg ring data).packets)
          ([], .ok ((recvCompleted cfg ring data).rest,
            (recvCompleted cfg ring data).packetError)) := serveRounds_eq
    rw [serve, hcompleted, receive]
    generalize recvCompleted cfg ring data = r
    obtain ⟨taken, rest, packetError⟩ := r
    cases packetError with
    | true =>
      simp only [if_true]
      obtain ⟨calls, e | ⟨⟩⟩ := handleAll handle taken
      · rfl
      · simp only [andThen, List.append_nil]
    | false =>
      simp only [Bool.false_eq_true, if_false, handleAll_append, andThen_assoc, ← ih]
      obtain ⟨calls, e | ⟨⟩⟩ := handleAll handle taken
      · rfl
      · simp only [andThen, List.append_nil]

/-! ## The handlers the server registers -/

section Registered

variable {types : List (PacketType Buf Fields)} {readPacketId : Buf → PacketId × Buf}
  {recvPacket : Buf}

/-- **A handler calls nothing**: it throws where the id is registered, and is not there where it
is not. -/
theorem onRecvPacket_init : onRecvPacket (.init types) readPacketId recvPacket =
    ([], if registered types (readPacketId recvPacket).1 = none then .ok ()
      else .error .badAnyCast) := by
  obtain ⟨hmake, hhandler⟩ :=
    find_registerAll .iGameAndClientPacket types (readPacketId recvPacket).1
  cases hreg : registered types (readPacketId recvPacket).1 with
  | none =>
    rw [hreg] at hhandler
    simp [onRecvPacket, PacketManager.init, hhandler]
  | some t =>
    rw [hreg] at hmake hhandler
    simp [onRecvPacket, PacketManager.init, hhandler, hmake, PacketManager.handler,
      AnyPacket.anyCast, Except.map]

/-- So handling a list comes down to whether one of its ids is registered. -/
theorem handleAll_init {types : List (PacketType (List UInt8) Fields)}
    {readPacketId : List UInt8 → PacketId × List UInt8} :
    handleAll (onRecvPacket (.init types) readPacketId) packets =
      ([], if ∃ packet ∈ packets, registered types (readPacketId packet).1 ≠ none
        then .error .badAnyCast else .ok ()) := by
  induction packets with
  | nil => simp [handleAll]
  | cons packet packets ih =>
    rw [handleAll, ih, onRecvPacket_init]
    by_cases hreg : registered types (readPacketId packet).1 = none
    · simp [hreg, ok_andThen]
    · simp [hreg, andThen]

end Registered

/-- **What a session's stream comes to**, however TCP cuts it: no handler is ever called. If the id
of one of its frames is registered the process ends by an exception; otherwise every frame is
dropped, and the session is released exactly if the stream does not parse. -/
theorem serve_init {types : List (PacketType (List UInt8) Fields)}
    {readPacketId : List UInt8 → PacketId × List UInt8} (h3 : 3 ≤ cfg.headerSize)
    (h : (frameReader cfg h3).Parses cut.flatten packets failed) :
    serve cfg (onRecvPacket (.init types) readPacketId) [] cut =
      ([], if ∃ packet ∈ packets, registered types (readPacketId packet).1 ≠ none
        then .error .badAnyCast else .ok failed) := by
  obtain ⟨rfl, rfl⟩ := h.unique (Reader.parses_feed cut)
  rw [serve_eq, receive_eq_feed h3, handleAll_init]
  split
  · rfl
  · rfl

/-- A frame of an id nobody registers and a `Ping`, cut inside the second: the process ends. -/
theorem serve_init_ping :
    serve checksumConfig (onRecvPacket (.init [pingType]) GameDB.readUInt32) []
      [[119, 4, 0, 0, 9, 9, 0, 0, 0, 119, 4, 0], [0, 2, 2, 0, 0, 0]] =
        ([], .error .badAnyCast) := by
  have h3 : 3 ≤ checksumConfig.headerSize := by decide
  have hparses : (frameReader checksumConfig h3).Parses
      ([[119, 4, 0, 0, 9, 9, 0, 0, 0, 119, 4, 0], [0, 2, 2, 0, 0, 0]] : List (List UInt8)).flatten
      [[9, 0, 0, 0], [2, 0, 0, 0]] false := Reader.parses_drain _
  exact serve_init h3 hparses

end RIOServer

end DdingGameServer
