import DdingGameServer.Common.LittleEndian
import DdingGameServer.RIOServer.Dispatch
/-!
# RIOServer — the parameters of a packet

`SET_PARAMETERS` gives a packet class its two functions: `PacketToBuffer` writes the named members
to a buffer one behind the other, `BufferToPacket` reads them back in the same order. Each is a
template of its own that peels one argument off, with a template of its own for the last one.

`NetBuffer` is not part of the repository: a type of a member is what its `operator<<` appends to a
buffer and what its `operator>>` makes of the unread bytes.
-/

namespace DdingGameServer

namespace RIOServer

open GameDB (PacketId)

universe u

/-- A type with its two operators on `NetBuffer`: the bytes `buffer << value` appends, and the value
and the unread bytes after `buffer >> variable`, for what the variable held before. -/
structure FieldType where
  Value : Type u
  shiftLeft : Value → List UInt8
  shiftRight : List UInt8 → Value → Value × List UInt8

/-- `>>` behind `<<` gives the value back and leaves what follows. -/
def FieldType.RoundTrips (t : FieldType.{u}) : Prop :=
  ∀ value old suffix, t.shiftRight (t.shiftLeft value ++ suffix) old = (value, suffix)

/-- **A packet class declared with `SET_PARAMETERS`**: its members and their types, and the
arguments of the macro, of which there is at least one. A member may be named twice. -/
structure PacketClass where
  Member : Type
  decEq : DecidableEq Member
  fieldType : Member → FieldType.{u}
  getPacketId : PacketId
  param : Member
  argList : List Member

namespace PacketClass

variable (c : PacketClass.{u})

instance : DecidableEq c.Member := c.decEq

/-- `__VA_ARGS__`. -/
def parameters : List c.Member := c.param :: c.argList

/-- An object of the class. -/
abbrev Packet : Type u := ∀ m, (c.fieldType m).Value

/-- `buffer << packet.m`. -/
def write (buffer : List UInt8) (packet : c.Packet) (m : c.Member) : List UInt8 :=
  buffer ++ (c.fieldType m).shiftLeft (packet m)

/-- `buffer >> packet.m`. -/
def read (buffer : List UInt8) (packet : c.Packet) (m : c.Member) : c.Packet × List UInt8 :=
  let (value, buffer) := (c.fieldType m).shiftRight buffer (packet m)
  (Function.update packet m value, buffer)

/-- `SetParametersToBuffer`. -/
def setParametersToBuffer (buffer : List UInt8) (packet : c.Packet) (param : c.Member) :
    List c.Member → List UInt8
  | [] => c.write buffer packet param
  | arg :: argList => setParametersToBuffer (c.write buffer packet param) packet arg argList

/-- `SetBufferToParameters`. -/
def setBufferToParameters (buffer : List UInt8) (packet : c.Packet) (param : c.Member) :
    List c.Member → c.Packet × List UInt8
  | [] => c.read buffer packet param
  | arg :: argList =>
    let (packet, buffer) := c.read buffer packet param
    setBufferToParameters buffer packet arg argList

/-- `PacketToBuffer`. -/
def packetToBuffer (buffer : List UInt8) (packet : c.Packet) : List UInt8 :=
  c.setParametersToBuffer buffer packet c.param c.argList

/-- `BufferToPacket`. -/
def bufferToPacket (buffer : List UInt8) (packet : c.Packet) : c.Packet × List UInt8 :=
  c.setBufferToParameters buffer packet c.param c.argList

end PacketClass

/-- The operators of `PacketId`. -/
structure PacketIdType where
  shiftLeft : PacketId → List UInt8
  shiftRight : List UInt8 → PacketId × List UInt8

def PacketIdType.RoundTrips (t : PacketIdType) : Prop :=
  ∀ packetId suffix, t.shiftRight (t.shiftLeft packetId ++ suffix) = (packetId, suffix)

/-- `RIOSession::SendPacket(IGameAndClientPacket&)`: the buffer it hands on, none where `Alloc` gave
none. -/
def writePacket (idType : PacketIdType) (c : PacketClass.{u}) (alloc : Option (List UInt8))
    (packet : c.Packet) : Option (List UInt8) :=
  match alloc with
  | none => none
  | some buffer => some (c.packetToBuffer (buffer ++ idType.shiftLeft c.getPacketId) packet)

/-- What reading the id and then `BufferToPacket` find. -/
structure ReadPacket (c : PacketClass.{u}) where
  packetId : PacketId
  packet : c.Packet
  unread : List UInt8

/-- The reads of `OnRecvPacket` and of the handler of `RegisterPacketHandler`, on the object
`MakePacket` made. -/
def readPacket (idType : PacketIdType) (c : PacketClass.{u}) (buffer : List UInt8)
    (made : c.Packet) : ReadPacket c :=
  let (packetId, buffer) := idType.shiftRight buffer
  let (packet, unread) := c.bufferToPacket buffer made
  ⟨packetId, packet, unread⟩

/-! ## What is written -/

namespace PacketClass

variable {c : PacketClass.{u}} {sent made : c.Packet} {buffer suffix : List UInt8}
  {m param : c.Member} {argList : List c.Member}

/-- **The written bytes** are those of the members, in their order, behind what the buffer held. -/
theorem setParametersToBuffer_eq :
    c.setParametersToBuffer buffer sent param argList =
      buffer ++ (param :: argList).flatMap fun m => (c.fieldType m).shiftLeft (sent m) := by
  induction argList generalizing buffer param with
  | nil => simp [setParametersToBuffer, write]
  | cons arg argList ih => simp [setParametersToBuffer, write, ih, List.append_assoc]

theorem packetToBuffer_eq : c.packetToBuffer buffer sent =
    buffer ++ c.parameters.flatMap fun m => (c.fieldType m).shiftLeft (sent m) :=
  setParametersToBuffer_eq

/-! ## What is read back -/

/-- The object with the members of a list copied from another. -/
def copied (sent made : c.Packet) (members : List c.Member) : c.Packet :=
  fun m => if m ∈ members then sent m else made m

/-- Reading one member behind its own bytes copies it. -/
theorem read_shiftLeft (h : (c.fieldType m).RoundTrips) :
    c.read ((c.fieldType m).shiftLeft (sent m) ++ suffix) made m =
      (copied sent made [m], suffix) := by
  have hcopied : Function.update made m (sent m) = copied sent made [m] := by
    funext m'
    by_cases hm : m' = m
    · subst hm
      simp [copied]
    · simp [copied, hm]
  rw [read, h (sent m) (made m) suffix, ← hcopied]

/-- Members copied one list after the other. -/
theorem copied_copied {members members' : List c.Member} :
    copied sent (copied sent made members) members' = copied sent made (members ++ members') := by
  funext m
  by_cases h : m ∈ members <;> by_cases h' : m ∈ members' <;> simp [copied, h, h']

/-- **Reading the members behind their bytes copies them**, by induction on the arguments: what one
member leaves is the bytes of the others and the suffix. -/
theorem setBufferToParameters_flatMap
    (h : ∀ m ∈ param :: argList, (c.fieldType m).RoundTrips) :
    c.setBufferToParameters
        ((param :: argList).flatMap (fun m => (c.fieldType m).shiftLeft (sent m)) ++ suffix)
        made param argList =
      (copied sent made (param :: argList), suffix) := by
  induction argList generalizing made param with
  | nil =>
    simp only [List.flatMap_cons, List.flatMap_nil, List.append_nil, setBufferToParameters]
    exact read_shiftLeft (h param List.mem_cons_self)
  | cons arg argList ih =>
    have hrest : ∀ m ∈ arg :: argList, (c.fieldType m).RoundTrips :=
      fun m hm => h m (List.mem_cons_of_mem _ hm)
    rw [List.flatMap_cons, List.append_assoc, setBufferToParameters,
      read_shiftLeft (h param List.mem_cons_self)]
    dsimp only
    rw [ih hrest, copied_copied, List.singleton_append]

theorem bufferToPacket_flatMap (h : ∀ m ∈ c.parameters, (c.fieldType m).RoundTrips) :
    c.bufferToPacket
        (c.parameters.flatMap (fun m => (c.fieldType m).shiftLeft (sent m)) ++ suffix) made =
      (copied sent made c.parameters, suffix) :=
  setBufferToParameters_flatMap h

end PacketClass

/-! ## The round trip -/

/-- **A packet reads back as it was written**: the id, every parameter, nothing else of the object
changed, and the bytes that follow left unread. -/
theorem readPacket_writePacket {idType : PacketIdType} {c : PacketClass.{u}}
    (hid : idType.RoundTrips) (h : ∀ m ∈ c.parameters, (c.fieldType m).RoundTrips)
    (sent made : c.Packet) (suffix : List UInt8) :
    ∃ written, writePacket idType c (some []) sent = some written ∧
      (readPacket idType c (written ++ suffix) made).packetId = c.getPacketId ∧
      (∀ m ∈ c.parameters, (readPacket idType c (written ++ suffix) made).packet m = sent m) ∧
      (∀ m ∉ c.parameters, (readPacket idType c (written ++ suffix) made).packet m = made m) ∧
      (readPacket idType c (written ++ suffix) made).unread = suffix := by
  refine ⟨_, rfl, ?_⟩
  have hread : readPacket idType c
      (c.packetToBuffer ([] ++ idType.shiftLeft c.getPacketId) sent ++ suffix) made =
        ⟨c.getPacketId, c.copied sent made c.parameters, suffix⟩ := by
    rw [PacketClass.packetToBuffer_eq, List.nil_append, List.append_assoc, readPacket, hid]
    dsimp only
    rw [PacketClass.bufferToPacket_flatMap h]
  rw [hread]
  exact ⟨rfl, fun m hm => if_pos hm, fun m hm => if_neg hm, rfl⟩

/-! ## A packet class to run -/

/-- The operators of `PacketId`, an `unsigned int`, on four bytes. -/
def packetIdType : PacketIdType where
  shiftLeft packetId := toBytes 4 packetId.toNat
  shiftRight unread := (UInt32.ofNat (ofBytes (unread.take 4)), unread.drop 4)

theorem roundTrips_packetIdType : packetIdType.RoundTrips := by
  intro packetId suffix
  have hlen : (toBytes 4 packetId.toNat).length = 4 := length_toBytes
  have hlt : packetId.toNat < 256 ^ 4 := packetId.toNat_lt
  simp only [packetIdType]
  rw [List.take_left' hlen, List.drop_left' hlen, ofBytes_toBytes, Nat.mod_eq_of_lt hlt,
    UInt32.ofNat_toNat]

/-- A member of type `unsigned int`. -/
def unsignedInt : FieldType where
  Value := UInt32
  shiftLeft := packetIdType.shiftLeft
  shiftRight unread _ := packetIdType.shiftRight unread

/-- A string of at most 255 bytes, behind its length. -/
def shortString : FieldType where
  Value := { bytes : List UInt8 // bytes.length < 256 }
  shiftLeft value := UInt8.ofNat value.1.length :: value.1
  shiftRight unread old :=
    match unread with
    | [] => (old, [])
    | length :: unread =>
      (⟨unread.take length.toNat, (List.length_take_le _ _).trans_lt length.toNat_lt⟩,
        unread.drop length.toNat)

theorem roundTrips_shortString : shortString.RoundTrips := by
  rintro ⟨bytes, hlt⟩ old suffix
  have hlen : (UInt8.ofNat bytes.length).toNat = bytes.length := by
    rw [UInt8.toNat_ofNat', Nat.mod_eq_of_lt hlt]
  simp [shortString, hlen]

/-- A packet with an id and a name, the id named twice. -/
def loginPacket : PacketClass where
  Member := Bool
  decEq := inferInstance
  fieldType isName := cond isName shortString unsignedInt
  getPacketId := 100
  param := false
  argList := [true, false]

/-- It reads back: 7 and `Hi`, with another packet behind it. -/
theorem readPacket_loginPacket :
    (∀ packetId suffix, packetIdType.shiftRight (packetIdType.shiftLeft packetId ++ suffix) =
      (packetId, suffix)) ∧
    ∃ written,
      writePacket packetIdType loginPacket (some [])
        (fun | true => ⟨[72, 105], by decide⟩ | false => (7 : UInt32)) = some written ∧
      (readPacket packetIdType loginPacket (written ++ [1, 2])
        (fun | true => ⟨[], by decide⟩ | false => (0 : UInt32))).unread = [1, 2] := by
  have hfields : ∀ m ∈ loginPacket.parameters, (loginPacket.fieldType m).RoundTrips := by
    intro m _
    cases m with
    | true => exact roundTrips_shortString
    | false => exact fun value old suffix => roundTrips_packetIdType value suffix
  obtain ⟨written, hwritten, -, -, -, hunread⟩ :=
    readPacket_writePacket (c := loginPacket) roundTrips_packetIdType hfields
      (fun | true => ⟨[72, 105], by decide⟩ | false => (7 : UInt32))
      (fun | true => ⟨[], by decide⟩ | false => (0 : UInt32)) [1, 2]
  exact ⟨roundTrips_packetIdType, written, hwritten, hunread⟩

end RIOServer

end DdingGameServer
