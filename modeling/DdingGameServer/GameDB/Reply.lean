import DdingGameServer.DBServer.Model
import DdingGameServer.GameDB.Manager
/-!
# DBClient — the reply to a batch

DBServer answers a batch with its key and whether it was committed. The game server reads a packet
id off the front, makes an empty packet of that type, copies the rest of the bytes into it, and
calls the handler of the type. A reply fails this twice: it begins with its key instead of an id,
and `PacketManager` can make a `Ping` and nothing else, so that no reply ever reaches
`AssemblePacket`.
-/

namespace DdingGameServer

namespace GameDB

universe u

variable {Buf : Type u} [SerializationBuf Buf] {key : DBJobKey} {flag : Bool} {b : Buf}
  {packetId : PacketId}

/-! ## The two maps -/

/-- The fields of a packet object as they lie in memory, packed, after the pointer to its
functions. -/
abbrev Fields := List UInt8

/-- The fields of a `DBJobReply` read from memory. -/
def DBJobReply.ofFields (fields : Fields) : DBJobReply where
  jobKey := UInt64.ofNat (ofBytes (fields.take 8))
  isSuccessed := fields.getD 8 0 ≠ 0

/-- And a `DBJobReply` in memory. -/
def DBJobReply.fields (packet : DBJobReply) : Fields :=
  toBytes 8 packet.jobKey.toNat ++ [packet.isSuccessed.toUInt8]

/-- `PacketManager::packetFactoryFunctionMap`: the fields of a new packet of each registered
type. -/
abbrev FactoryMap := KeyMap PacketId Fields

/-- `ProcedureReplyHandler::packetHandlerMap`: how the handler of each type reads the packet it
calls `AssemblePacket` with. -/
abbrev HandlerMap := KeyMap PacketId (Fields → DBJobReply)

/-- `PacketManager::Init`: `REGISTER_PACKET_LIST` names `Ping`, which has no fields. -/
def packetFactoryFunctionMap : FactoryMap := KeyMap.empty.assign ping []

/-- `ProcedureReplyHandler::Initialize`: `REGISTER_ALL_DB_REPLY_HANDLER` names `DBJobReply`. -/
def packetHandlerMap : HandlerMap := KeyMap.empty.assign db2GameBatchedDBJob DBJobReply.ofFields

/-! ## Receiving -/

/-- `memcpy` to the start of some fields, and past their end where the source is longer. -/
def memcpy (target source : List UInt8) : List UInt8 := source ++ target.drop source.length

/-- `SPReplyHandle`: the packet `AssemblePacket` is called with, if it is. -/
def spReplyHandle (handlers : HandlerMap) (factories : FactoryMap) (packetId : PacketId)
    (recvPacket : Buf) : Option DBJobReply :=
  match handlers.find packetId with
  | none => none
  | some packetHandler =>
    match factories.find packetId with
    | none => none
    | some packet => some (packetHandler (memcpy packet (unread recvPacket)))

/-- `DBClient::OnRecv`: the packet id it reads, and the packet `AssemblePacket` is called with. -/
def onRecv (handlers : HandlerMap) (factories : FactoryMap) (outReadBuf : Buf) :
    PacketId × Option DBJobReply :=
  let (recvPacketId, buffer) := readUInt32 outReadBuf
  (recvPacketId, spReplyHandle handlers factories recvPacketId buffer)

/-- **The reply round-trips**: every reply of an execution of `DoBatchedJob` for `key`, whatever it
says, is received as what it is. -/
def RoundTrips (Buf : Type u) [SerializationBuf Buf] (key : DBJobKey) (flag : Bool) : Prop :=
  onRecv packetHandlerMap packetFactoryFunctionMap
      (({ jobKey := key, isSuccess := flag } : DBServer.ResultPacket).buffer : Buf) =
    (db2GameBatchedDBJob, some { jobKey := key, isSuccessed := flag })

/-! ## What becomes of a reply -/

/-- **`AssemblePacket` is never called**: a type with a handler has no factory. -/
theorem spReplyHandle_eq_none :
    spReplyHandle packetHandlerMap packetFactoryFunctionMap packetId b = none := by
  by_cases hid : packetId = db2GameBatchedDBJob
  · subst hid
    rfl
  · have hnone : packetHandlerMap.find packetId = none := KeyMap.find_assign_of_ne hid
    rw [spReplyHandle, hnone]

/-- The id that is read off a reply is the low half of its key. -/
theorem onRecv_fst_reply [LawfulSerializationBuf Buf] {handlers : HandlerMap}
    {factories : FactoryMap} :
    (onRecv handlers factories
      (({ jobKey := key, isSuccess := flag } : DBServer.ResultPacket).buffer : Buf)).1 =
      key.toUInt32 := by
  have hunread : unread (({ jobKey := key, isSuccess := flag } : DBServer.ResultPacket).buffer : Buf)
      = toBytes 4 key.toNat ++ (toBytes 4 (key.toNat / 256 ^ 4) ++ [flag.toUInt8]) := by
    rw [DBServer.ResultPacket.buffer, LawfulSerializationBuf.unread_writeBool,
      LawfulSerializationBuf.unread_writeUInt64, LawfulSerializationBuf.unread_alloc,
      List.nil_append, show (8 : ℕ) = 4 + 4 from rfl, toBytes_add, List.append_assoc]
  show (readUInt32 _).1 = _
  rw [LawfulSerializationBuf.readUInt32_fst hunread]
  exact UInt32.toNat_inj.mp (by simp)

theorem DBJobReply.length_fields {packet : DBJobReply} : packet.fields.length = 9 := by
  rw [DBJobReply.fields, List.length_append, length_toBytes, List.length_singleton]

theorem DBJobReply.ofFields_fields {packet : DBJobReply} :
    DBJobReply.ofFields packet.fields = packet := by
  have htake : packet.fields.take 8 = toBytes 8 packet.jobKey.toNat :=
    List.take_left' length_toBytes
  have hflag : packet.fields.getD 8 0 = packet.isSuccessed.toUInt8 := rfl
  have hkey : UInt64.ofNat (packet.jobKey.toNat % 256 ^ 8) = packet.jobKey := by
    rw [show 256 ^ 8 = 2 ^ 64 from rfl, Nat.mod_eq_of_lt packet.jobKey.toNat_lt,
      UInt64.ofNat_toNat]
  rw [DBJobReply.ofFields, htake, hflag, ofBytes_toBytes, hkey]
  rcases packet with ⟨jobKey, _ | _⟩ <;> rfl

/-- The copy of a reply's bytes into a `DBJobReply` is that reply. -/
theorem ofFields_memcpy {packet target : DBJobReply} :
    DBJobReply.ofFields (memcpy target.fields packet.fields) = packet := by
  rw [memcpy, DBJobReply.length_fields, List.drop_of_length_le DBJobReply.length_fields.le,
    List.append_nil, DBJobReply.ofFields_fields]

/-- **What is missing**: a reply that begins with its id arrives where the factory knows its
type. -/
theorem onRecv_of_factory [LawfulSerializationBuf Buf] {packet target : DBJobReply}
    {factories : FactoryMap} (hfactory : factories.find db2GameBatchedDBJob = some target.fields)
    (hunread : unread b = toBytes 4 db2GameBatchedDBJob.toNat ++ packet.fields) :
    onRecv packetHandlerMap factories b = (db2GameBatchedDBJob, some packet) := by
  have hid : (readUInt32 b).1 = db2GameBatchedDBJob :=
    LawfulSerializationBuf.readUInt32_fst hunread
  have hrest : unread (readUInt32 b).2 = packet.fields :=
    LawfulSerializationBuf.unread_readUInt32 hunread
  have hhandler : packetHandlerMap.find db2GameBatchedDBJob = some DBJobReply.ofFields :=
    KeyMap.find_assign_self
  show ((readUInt32 b).1, spReplyHandle _ _ (readUInt32 b).1 (readUInt32 b).2) = _
  simp only [hid, spReplyHandle, hhandler, hfactory, hrest, ofFields_memcpy]

/-- **No reply round-trips.** -/
theorem not_roundTrips (Buf : Type u) [SerializationBuf Buf] (key : DBJobKey) (flag : Bool) :
    ¬ RoundTrips Buf key flag := by
  intro h
  have hassembled := congrArg Prod.snd h
  rw [show (onRecv packetHandlerMap packetFactoryFunctionMap _).2 = none from
    spReplyHandle_eq_none] at hassembled
  exact nomatch hassembled

/-- Not even the one whose key reads as the right id. -/
theorem not_roundTrips_five : ¬ RoundTrips (List UInt8) 5 true := by
  intro h
  exact absurd (congrArg Prod.snd h) (by decide)

end GameDB

end DdingGameServer
