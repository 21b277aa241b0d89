import DdingGameServer.Auth.Registration
import DdingGameServer.GameDB.Protocol
/-!
# Handshake — a game server registers

A game server that is connected to AuthServer sends a packet with its id, and is answered with a
flag. Two things are wrong with it. The packet has the type and no id, which is commented out, so
AuthServer reads the id off an empty buffer (`onRecv_onConnectionComplete`); and the answer has a
type of its own, while the game server waits for one of the type of its own packet
(`AuthClient.onRecv_of_type`). So no handshake is ever completed (`not_handshake`).
-/

namespace DdingGameServer

namespace Auth

open GameDB

universe u

/-- `AuthProtocol::Auth2Game_RegisterSuccess`. -/
def auth2GameRegisterSuccess : UInt16 := 30000

/-- `AuthProtocol::Game2Auth_Register`. -/
def game2AuthRegister : UInt16 := 40000

/-! ## Numbers of two bytes, and flags -/

/-- **`CSerializationBuf`**: what the handshake calls besides. -/
class LanSerializationBuf (Buf : Type u) extends SerializationBuf Buf where
  /-- `>>` on a `WORD`. -/
  readUInt16 : Buf → UInt16 × Buf
  /-- `>>` on a `bool`. -/
  readBool : Buf → Bool × Buf
  /-- `<<` on a `WORD`. -/
  writeUInt16 : Buf → UInt16 → Buf

export LanSerializationBuf (readUInt16 readBool writeUInt16)

/-- What the handshake relies on besides. What `>>` answers on a buffer that is too short is left
open. -/
class LawfulLanSerializationBuf (Buf : Type u) [LanSerializationBuf Buf] : Prop extends
    LawfulSerializationBuf Buf where
  readUInt16_fst {b : Buf} {n : ℕ} {rest : List UInt8} : unread b = toBytes 2 n ++ rest →
    (readUInt16 b).1 = UInt16.ofNat n
  unread_readUInt16 {b : Buf} {n : ℕ} {rest : List UInt8} : unread b = toBytes 2 n ++ rest →
    unread (readUInt16 b).2 = rest
  readBool_fst {b : Buf} {x : Bool} {rest : List UInt8} : unread b = x.toUInt8 :: rest →
    (readBool b).1 = x
  unread_writeUInt16 (b : Buf) (x : UInt16) :
    unread (writeUInt16 b x) = unread b ++ toBytes 2 x.toNat

instance : LanSerializationBuf (List UInt8) where
  readUInt16 b := (UInt16.ofNat (ofBytes (b.take 2)), b.drop 2)
  readBool b := (b.headD 0 ≠ 0, b.drop 1)
  writeUInt16 b x := b ++ toBytes 2 x.toNat

instance : LawfulLanSerializationBuf (List UInt8) where
  readUInt16_fst := by
    rintro b n rest (rfl : b = _)
    show UInt16.ofNat (ofBytes (List.take 2 _)) = _
    rw [List.take_left' length_toBytes, ofBytes_toBytes]
    exact UInt16.ofNat_mod_size
  unread_readUInt16 := by
    rintro b n rest (rfl : b = _)
    exact List.drop_left' length_toBytes
  readBool_fst := by
    rintro b x rest (rfl : b = _)
    cases x <;> rfl
  unread_writeUInt16 _ _ := rfl

variable {Buf : Type u} [LanSerializationBuf Buf]

/-! ## The game server -/

/-- `AuthClient`. -/
structure AuthClient where
  isConnected : Bool := false
  deriving DecidableEq, Repr

/-- What a call of `AuthClient::OnRecv` leads to: whether it is a case of its switch, the client it
leaves, what is printed, and whether it calls `Crash`. -/
structure Received where
  recognised : Bool
  client : AuthClient
  output : List String
  crashed : Bool
  deriving DecidableEq, Repr

namespace AuthClient

/-- `OnConnectionComplete`: the packet it sends. -/
def onConnectionComplete : Buf :=
  -- the source has `<< gameServerId` behind the type, as a comment
  writeUInt16 alloc game2AuthRegister

/-- `OnRecv`. -/
def onRecv (c : AuthClient) (outReadBuf : Buf) : Received :=
  let (packetType, outReadBuf) := readUInt16 outReadBuf
  if packetType = game2AuthRegister then
    let (isConnected, _) := readBool outReadBuf
    if isConnected = false then
      ⟨true, ⟨isConnected⟩, ["Failed to connect to the auth server"], true⟩
    else
      ⟨true, ⟨isConnected⟩, ["Successed to connect to auth server"], false⟩
  else ⟨false, c, [], false⟩

end AuthClient

/-! ## AuthServer -/

/-- The packet of an answer, as `GameServerRegisterRequest` fills it. -/
def RegisterSuccess.buffer (r : RegisterSuccess) : Buf :=
  writeBool (writeUInt16 alloc auth2GameRegisterSuccess) r.isConnected

/-- `HandleGame2AuthPacket`: the id it reads and what the request leads to, `none` where the type is
not a case of its switch. -/
def AuthServer.handleGame2AuthPacket (a : AuthServer) (sessionId : SessionId) (packetType : UInt16)
    (recvBuffer : Buf) : Option (GameServerId × Registered) :=
  if packetType = game2AuthRegister then
    let (gameServerId, _) := readUInt16 recvBuffer
    some (gameServerId, a.gameServerRegisterRequest sessionId gameServerId)
  else none

/-- `AuthLanServer::OnRecv`. -/
def AuthServer.onRecv (a : AuthServer) (sessionId : SessionId) (receivedBuffer : Buf) :
    Option (GameServerId × Registered) :=
  let (packetType, receivedBuffer) := readUInt16 receivedBuffer
  a.handleGame2AuthPacket sessionId packetType receivedBuffer

/-- **The handshake**: the packet of the game server `gameServerId` is received as a request for
that id, and the answer is received as an answer, after which the client has the flag of it. A
packet is received with the bytes it was sent with. -/
def Handshake (Buf : Type u) [LanSerializationBuf Buf] (a : AuthServer) (sessionId : SessionId)
    (gameServerId : GameServerId) (c : AuthClient) : Prop :=
  ∀ request : Buf, unread request = unread (AuthClient.onConnectionComplete : Buf) →
    ∃ r, a.onRecv sessionId request = some (gameServerId, r) ∧
      ∀ answer : Buf, unread answer = unread (r.reply.buffer : Buf) →
        (c.onRecv answer).recognised = true ∧
          (c.onRecv answer).client.isConnected = r.reply.isConnected

variable [LawfulLanSerializationBuf Buf] {a : AuthServer} {sessionId : SessionId}
  {gameServerId : GameServerId} {c : AuthClient} {b : Buf}

/-- **The id is read off an empty buffer.** -/
theorem onRecv_onConnectionComplete
    (h : unread b = unread (AuthClient.onConnectionComplete : Buf)) :
    ∃ rest : Buf, unread rest = [] ∧ a.onRecv sessionId b =
      some ((readUInt16 rest).1, a.gameServerRegisterRequest sessionId (readUInt16 rest).1) := by
  have hunread : unread b = toBytes 2 game2AuthRegister.toNat ++ [] := by
    rw [h, AuthClient.onConnectionComplete, LawfulLanSerializationBuf.unread_writeUInt16,
      LawfulSerializationBuf.unread_alloc, List.nil_append, List.append_nil]
  have htype : (readUInt16 b).1 = game2AuthRegister :=
    LawfulLanSerializationBuf.readUInt16_fst hunread
  refine ⟨(readUInt16 b).2, LawfulLanSerializationBuf.unread_readUInt16 hunread, ?_⟩
  simp only [AuthServer.onRecv, AuthServer.handleGame2AuthPacket, htype, if_true]

/-- **The client takes the flag of an answer of the type of its own packet, and ignores every
other.** -/
theorem AuthClient.onRecv_of_type {packetType : UInt16} {flag : Bool}
    (h : unread b = toBytes 2 packetType.toNat ++ [flag.toUInt8]) :
    ((c.onRecv b).recognised = true ↔ packetType = game2AuthRegister) ∧
      (c.onRecv b).client = if packetType = game2AuthRegister then ⟨flag⟩ else c := by
  have htype : (readUInt16 b).1 = packetType := by
    rw [LawfulLanSerializationBuf.readUInt16_fst h, UInt16.ofNat_toNat]
  have hflag : (readBool (readUInt16 b).2).1 = flag :=
    LawfulLanSerializationBuf.readBool_fst (LawfulLanSerializationBuf.unread_readUInt16 h)
  by_cases heq : packetType = game2AuthRegister
  · cases flag <;> simp [AuthClient.onRecv, htype, hflag, heq]
  · simp [AuthClient.onRecv, htype, heq]

/-- The bytes of an answer. -/
theorem RegisterSuccess.unread_buffer (r : RegisterSuccess) :
    unread (r.buffer : Buf) =
      toBytes 2 auth2GameRegisterSuccess.toNat ++ [r.isConnected.toUInt8] := by
  rw [RegisterSuccess.buffer, LawfulSerializationBuf.unread_writeBool,
    LawfulLanSerializationBuf.unread_writeUInt16, LawfulSerializationBuf.unread_alloc,
    List.nil_append]

/-- **No answer of AuthServer is received as one.** -/
theorem AuthClient.not_recognised_reply (r : RegisterSuccess)
    (h : unread b = unread (r.buffer : Buf)) : (c.onRecv b).recognised ≠ true := by
  rw [r.unread_buffer] at h
  exact fun hrecognised => absurd ((AuthClient.onRecv_of_type h).1.mp hrecognised) (by decide)

/-- **No handshake is ever completed**, of any game server, whatever the map holds. -/
theorem not_handshake (Buf : Type u) [LanSerializationBuf Buf] [LawfulLanSerializationBuf Buf]
    (a : AuthServer) (sessionId : SessionId) (gameServerId : GameServerId) (c : AuthClient) :
    ¬ Handshake Buf a sessionId gameServerId c := by
  intro h
  obtain ⟨r, -, hanswer⟩ := h AuthClient.onConnectionComplete rfl
  exact AuthClient.not_recognised_reply r.reply rfl (hanswer r.reply.buffer rfl).1

/-- Neither with the id that an empty buffer reads as. -/
theorem not_handshake_zero : ¬ Handshake (List UInt8) ⟨∅, ∅⟩ 1 0 {} :=
  not_handshake (List UInt8) ⟨∅, ∅⟩ 1 0 {}

/-- **Game server 7 connects to an AuthServer that knows no other**: it is entered as 0, and the
answer is ignored. -/
theorem not_handshake_seven : ¬ Handshake (List UInt8) ⟨∅, ∅⟩ 1 7 {} := by
  intro h
  obtain ⟨r, hr, -⟩ := h AuthClient.onConnectionComplete rfl
  have hid : (0 : GameServerId) = 7 := congrArg Prod.fst (Option.some.inj hr)
  cases hid

end Auth

end DdingGameServer
