import DdingGameServer.Common.LittleEndian
/-!
# Protocol — what a game server and DBServer say to each other

The packet ids and constants both programs share, and `CSerializationBuf`. That class is not part
of the repository: `SerializationBuf` lists what is called of it, and `LawfulSerializationBuf` what
is relied on, namely that `<<` appends a fixed-width little-endian number and `>>` takes one off the
front. What `>>` answers on a buffer that is too short is left open.
-/

namespace DdingGameServer

namespace GameDB

universe u

abbrev SessionId := UInt64

abbrev DBJobKey := UInt64

/-- A packet id as it travels, a `UINT`; any value can arrive. -/
abbrev PacketId := UInt32

/-- `INVALID_SESSION_ID` of `DefineType.h`. -/
def invalidSessionId : SessionId := 0

/-- `INVALID_DB_JOB_KEY` of `DefineType.h`. -/
def invalidDBJobKey : DBJobKey := 0xffffffffffffffff

/-- `MAXIMUM_BATCHED_DB_JOB_SIZE` of `DefineType.h`. -/
def maximumBatchedDBJobSize : ℕ := 16

/-- `PACKET_ID::PING`. -/
def ping : PacketId := 2

/-- `PACKET_ID::GAME2DB_BATCHED_DB_JOB`. -/
def game2DBBatchedDBJob : PacketId := 4

/-- `PACKET_ID::DB2GAME_BATCHED_DB_JOB`. -/
def db2GameBatchedDBJob : PacketId := 5

/-- `DBJobStart`, with its defaults. -/
structure DBJobStart where
  sessionId : SessionId := invalidSessionId
  batchSize : UInt32 := 0
  deriving DecidableEq, Repr

/-! ## The serialization buffer -/

/-- **`CSerializationBuf`**: the calls made of it. -/
class SerializationBuf (Buf : Type u) where
  alloc : Buf
  /-- The bytes from the read position to the write position. -/
  unread : Buf → List UInt8
  /-- `>>` on a `UINT`. -/
  readUInt32 : Buf → UInt32 × Buf
  /-- `>>` on a `UINT64`. -/
  readUInt64 : Buf → UInt64 × Buf
  /-- `<<` on a `UINT`. -/
  writeUInt32 : Buf → UInt32 → Buf
  /-- `<<` on a `UINT64`. -/
  writeUInt64 : Buf → UInt64 → Buf
  /-- `<<` on a `bool`. -/
  writeBool : Buf → Bool → Buf
  /-- The offset of `GetWriteBufferPtr` in the buffer. -/
  getWriteBufferPtr : Buf → ℕ
  moveWritePos : Buf → ℕ → Buf
  /-- Eight bytes stored at an offset, through a pointer into the buffer. -/
  store : Buf → ℕ → UInt64 → Buf

export SerializationBuf (alloc unread readUInt32 readUInt64 writeUInt32 writeUInt64 writeBool
  getWriteBufferPtr moveWritePos store)

/-- What the two programs rely on. -/
class LawfulSerializationBuf (Buf : Type u) [SerializationBuf Buf] : Prop where
  unread_alloc : unread (alloc : Buf) = []
  readUInt32_fst {b : Buf} {n : ℕ} {rest : List UInt8} : unread b = toBytes 4 n ++ rest →
    (readUInt32 b).1 = UInt32.ofNat n
  unread_readUInt32 {b : Buf} {n : ℕ} {rest : List UInt8} : unread b = toBytes 4 n ++ rest →
    unread (readUInt32 b).2 = rest
  readUInt64_fst {b : Buf} {n : ℕ} {rest : List UInt8} : unread b = toBytes 8 n ++ rest →
    (readUInt64 b).1 = UInt64.ofNat n
  unread_readUInt64 {b : Buf} {n : ℕ} {rest : List UInt8} : unread b = toBytes 8 n ++ rest →
    unread (readUInt64 b).2 = rest
  unread_writeUInt32 (b : Buf) (x : UInt32) :
    unread (writeUInt32 b x) = unread b ++ toBytes 4 x.toNat
  unread_writeUInt64 (b : Buf) (x : UInt64) :
    unread (writeUInt64 b x) = unread b ++ toBytes 8 x.toNat
  unread_writeBool (b : Buf) (x : Bool) : unread (writeBool b x) = unread b ++ [x.toUInt8]
  length_unread_moveWritePos (b : Buf) (n : ℕ) :
    (unread (moveWritePos b n)).take (unread b).length = unread b ∧
      (unread (moveWritePos b n)).length = (unread b).length + n

/-- A buffer read from its start: the bytes not yet read. -/
instance : SerializationBuf (List UInt8) where
  alloc := []
  unread b := b
  readUInt32 b := (UInt32.ofNat (ofBytes (b.take 4)), b.drop 4)
  readUInt64 b := (UInt64.ofNat (ofBytes (b.take 8)), b.drop 8)
  writeUInt32 b x := b ++ toBytes 4 x.toNat
  writeUInt64 b x := b ++ toBytes 8 x.toNat
  writeBool b x := b ++ [x.toUInt8]
  getWriteBufferPtr b := b.length
  moveWritePos b n := b ++ List.replicate n 0
  store b i x := b.take i ++ toBytes 8 x.toNat ++ b.drop (i + 8)

private theorem take_toBytes_append {w n : ℕ} {rest : List UInt8} :
    (toBytes w n ++ rest).take w = toBytes w n :=
  List.take_left' length_toBytes

private theorem drop_toBytes_append {w n : ℕ} {rest : List UInt8} :
    (toBytes w n ++ rest).drop w = rest :=
  List.drop_left' length_toBytes

instance : LawfulSerializationBuf (List UInt8) where
  unread_alloc := rfl
  readUInt32_fst := by
    rintro b n rest (rfl : b = _)
    show UInt32.ofNat (ofBytes (List.take 4 _)) = _
    rw [take_toBytes_append, ofBytes_toBytes]
    exact UInt32.ofNat_mod_size
  unread_readUInt32 := by
    rintro b n rest (rfl : b = _)
    exact drop_toBytes_append
  readUInt64_fst := by
    rintro b n rest (rfl : b = _)
    show UInt64.ofNat (ofBytes (List.take 8 _)) = _
    rw [take_toBytes_append, ofBytes_toBytes]
    exact UInt64.ofNat_mod_size
  unread_readUInt64 := by
    rintro b n rest (rfl : b = _)
    exact drop_toBytes_append
  unread_writeUInt32 _ _ := rfl
  unread_writeUInt64 _ _ := rfl
  unread_writeBool _ _ := rfl
  length_unread_moveWritePos b n := by
    constructor <;> simp [unread, moveWritePos]

end GameDB

end DdingGameServer
