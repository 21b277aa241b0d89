import Mathlib.Data.List.Induction
import DdingGameServer.Common.KeyMap
import DdingGameServer.GameDB.Protocol
/-!
# RIOServer — dispatching a packet to its handler

`OnRecvPacket` reads the packet id, makes an object of the packet type registered under it and calls
the type's handler. The object travels through a `std::any`, which remembers the static type of the
pointer it was given: an `IPacket*`, since `MakePacket` returns a `shared_ptr<IPacket>`. The handler
asks for an `IGameAndClientPacket*`, and `std::any_cast` throws where it is asked for any other type
than the one stored. So no packet of a registered type reaches `HandlePacket`.

The packet types and `NetBuffer` are not part of the repository; a type is what the two templates
use of it.
-/

namespace DdingGameServer

namespace RIOServer

open GameDB (PacketId)

universe u v

/-- The static type of a pointer to a packet. -/
inductive PointerType
  | iPacket
  | iGameAndClientPacket
  | packetType (typeId : ℕ)
  deriving DecidableEq, Repr

inductive Exception
  | badAnyCast
  deriving DecidableEq, Repr

/-- A class derived from `IGameAndClientPacket`. -/
structure PacketType (Buf : Type u) (Fields : Type v) where
  typeId : ℕ
  getPacketId : PacketId
  /-- The fields of an object just made. -/
  fields : Fields
  bufferToPacket : Fields → Buf → Fields × Buf
  /-- The overload of `PacketManager::HandlePacket` for the type. -/
  handlePacket : Fields → Bool

variable {Buf : Type u} {Fields : Type v}

/-- An object behind a pointer, with its dynamic type. -/
structure PacketObject (Buf : Type u) (Fields : Type v) where
  packetType : PacketType Buf Fields
  fields : Fields

/-- A `std::any` that holds a pointer to a packet. -/
structure AnyPacket (Buf : Type u) (Fields : Type v) where
  pointerType : PointerType
  packet : PacketObject Buf Fields

/-- `std::any_cast`. -/
def AnyPacket.anyCast (anyPacket : AnyPacket Buf Fields) (target : PointerType) :
    Except Exception (PacketObject Buf Fields) :=
  if anyPacket.pointerType = target then .ok anyPacket.packet else .error .badAnyCast

/-- A call of `HandlePacket`: the type whose handler made it, and the packet it was given. -/
structure HandlerCall (Buf : Type u) (Fields : Type v) where
  packetType : PacketType Buf Fields
  packet : PacketObject Buf Fields

/-- The calls of `HandlePacket` a function makes, and how it ends. -/
abbrev HandlerOutcome (Buf : Type u) (Fields : Type v) (α : Type) :=
  List (HandlerCall Buf Fields) × Except Exception α

/-- **`PacketManager`.** -/
structure PacketManager (Buf : Type u) (Fields : Type v) where
  packetFactoryFunctionMap : KeyMap PacketId (Unit → PacketObject Buf Fields)
  packetHandlerMap : KeyMap PacketId (Buf → AnyPacket Buf Fields → HandlerOutcome Buf Fields Bool)

namespace PacketManager

/-- `RegisterPacket`. -/
def registerPacket (m : PacketManager Buf Fields) (t : PacketType Buf Fields) :
    PacketManager Buf Fields :=
  let factoryFunc := fun () => ⟨t, t.fields⟩
  { m with packetFactoryFunctionMap := m.packetFactoryFunctionMap.assign t.getPacketId factoryFunc }

/-- The handler of a packet type that asks for a pointer of type `target`. The `static_cast` to the
packet type checks nothing. -/
def handler (target : PointerType) (t : PacketType Buf Fields) (buffer : Buf)
    (packet : AnyPacket Buf Fields) : HandlerOutcome Buf Fields Bool :=
  match packet.anyCast target with
  | .error e => ([], .error e)
  | .ok realPacket =>
    let (fields, _) := t.bufferToPacket realPacket.fields buffer
    ([⟨t, { realPacket with fields }⟩], .ok (t.handlePacket fields))

/-- `RegisterPacketHandler`, with the type its `any_cast` names. -/
def registerPacketHandler (target : PointerType) (m : PacketManager Buf Fields)
    (t : PacketType Buf Fields) : PacketManager Buf Fields :=
  { m with packetHandlerMap := m.packetHandlerMap.assign t.getPacketId (handler target t) }

/-- `REGISTER_PACKET` for each type of a list. -/
def registerAll (target : PointerType) (types : List (PacketType Buf Fields)) :
    PacketManager Buf Fields :=
  types.foldl (fun m t => (m.registerPacket t).registerPacketHandler target t) ⟨.empty, .empty⟩

/-- `Init`. -/
def init (types : List (PacketType Buf Fields)) : PacketManager Buf Fields :=
  registerAll .iGameAndClientPacket types

def makePacket (m : PacketManager Buf Fields) (packetId : PacketId) :
    Option (PacketObject Buf Fields) :=
  (m.packetFactoryFunctionMap.find packetId).map fun factoryFunc => factoryFunc ()

def getPacketHandler (m : PacketManager Buf Fields) (packetId : PacketId) :
    Option (Buf → AnyPacket Buf Fields → HandlerOutcome Buf Fields Bool) :=
  m.packetHandlerMap.find packetId

end PacketManager

/-- `OnRecvPacket`; `readPacketId` is `>>` of the buffer. -/
def onRecvPacket (m : PacketManager Buf Fields) (readPacketId : Buf → PacketId × Buf)
    (recvPacket : Buf) : HandlerOutcome Buf Fields Unit :=
  let (packetId, recvPacket) := readPacketId recvPacket
  match m.getPacketHandler packetId with
  | none => ([], .ok ())
  | some packetHandler =>
    match m.makePacket packetId with
    | none => ([], .ok ())
    | some packet =>
      let anyPacket : AnyPacket Buf Fields := { pointerType := .iPacket, packet }
      let (calls, result) := packetHandler recvPacket anyPacket
      (calls, result.map fun _ => ())

/-! ## What is registered -/

/-- The packet type registered under an id: of several the last one. -/
def registered (types : List (PacketType Buf Fields)) (packetId : PacketId) :
    Option (PacketType Buf Fields) :=
  types.reverse.find? fun t => t.getPacketId = packetId

variable {types : List (PacketType Buf Fields)} {packetId : PacketId} {target : PointerType}
  {readPacketId : Buf → PacketId × Buf} {recvPacket : Buf}

/-- **The two maps agree**: under each id both hold what the type registered there gives. -/
theorem find_registerAll (target : PointerType) (types : List (PacketType Buf Fields))
    (packetId : PacketId) :
    (PacketManager.registerAll target types).makePacket packetId =
        (registered types packetId).map (fun t => ⟨t, t.fields⟩) ∧
      (PacketManager.registerAll target types).getPacketHandler packetId =
        (registered types packetId).map (PacketManager.handler target) := by
  induction types using List.reverseRecOn with
  | nil => exact ⟨rfl, rfl⟩
  | append_singleton types t ih =>
    have hreg : registered (types ++ [t]) packetId =
        if t.getPacketId = packetId then some t else registered types packetId := by
      simp only [registered, List.reverse_append, List.reverse_singleton, List.singleton_append,
        List.find?_cons]
      by_cases h : t.getPacketId = packetId
      · simp [h]
      · simp [h]
    have hall : PacketManager.registerAll target (types ++ [t]) =
        ((PacketManager.registerAll target types).registerPacket t).registerPacketHandler
          target t := by
      simp [PacketManager.registerAll, List.foldl_append]
    rw [hreg, hall]
    by_cases h : t.getPacketId = packetId
    · subst h
      rw [if_pos rfl]
      constructor
      · simp [PacketManager.makePacket, PacketManager.registerPacketHandler,
          PacketManager.registerPacket]
      · simp [PacketManager.getPacketHandler, PacketManager.registerPacketHandler]
    · rw [if_neg h, ← ih.1, ← ih.2]
      have hne : packetId ≠ t.getPacketId := Ne.symm h
      constructor
      · simp only [PacketManager.makePacket, PacketManager.registerPacketHandler,
          PacketManager.registerPacket, KeyMap.find_assign_of_ne hne]
      · simp only [PacketManager.getPacketHandler, PacketManager.registerPacketHandler,
          PacketManager.registerPacket, KeyMap.find_assign_of_ne hne]

/-! ## Dispatch -/

/-- **A payload is dispatched**: if its id is registered, the handler of the type registered there
is called once, with an object of that type whose fields were read from the rest, and nothing is
thrown; otherwise no handler is called. -/
def Dispatches (types : List (PacketType Buf Fields)) (readPacketId : Buf → PacketId × Buf)
    (recvPacket : Buf) (outcome : HandlerOutcome Buf Fields Unit) : Prop :=
  match registered types (readPacketId recvPacket).1 with
  | some t =>
    let (fields, _) := t.bufferToPacket t.fields (readPacketId recvPacket).2
    outcome = ([⟨t, ⟨t, fields⟩⟩], .ok ())
  | none => outcome.1 = []

/-- **It is the type named by `any_cast` that decides**: with the type `OnRecvPacket` stores, every
payload is dispatched; with any other, those whose id is not registered. -/
theorem dispatches_registerAll_iff :
    Dispatches types readPacketId recvPacket
        (onRecvPacket (.registerAll target types) readPacketId recvPacket) ↔
      target = .iPacket ∨ registered types (readPacketId recvPacket).1 = none := by
  obtain ⟨hmake, hhandler⟩ := find_registerAll target types (readPacketId recvPacket).1
  cases hreg : registered types (readPacketId recvPacket).1 with
  | none =>
    rw [hreg] at hhandler
    simp only [Dispatches, hreg, onRecvPacket, hhandler, Option.map_none, or_true]
  | some t =>
    rw [hreg] at hmake hhandler
    simp only [Dispatches, hreg, onRecvPacket, hhandler, hmake, Option.map_some,
      PacketManager.handler, AnyPacket.anyCast, reduceCtorEq, or_false]
    by_cases htarget : PointerType.iPacket = target
    · subst htarget
      simp [Except.map]
    · simp [htarget, Ne.symm htarget]

/-- **A payload is dispatched exactly if its id is not registered**: the handler of every registered
type throws instead. -/
theorem dispatches_init_iff (types : List (PacketType Buf Fields))
    (readPacketId : Buf → PacketId × Buf) (recvPacket : Buf) :
    Dispatches types readPacketId recvPacket
        (onRecvPacket (.init types) readPacketId recvPacket) ↔
      registered types (readPacketId recvPacket).1 = none := by
  simp [PacketManager.init, dispatches_registerAll_iff]

/-- `Ping`, which has no field. -/
def pingType : PacketType (List UInt8) Unit where
  typeId := 0
  getPacketId := GameDB.ping
  fields := ()
  bufferToPacket fields buffer := (fields, buffer)
  handlePacket _ := true

/-- A `Ping` from a client is not dispatched. -/
theorem not_dispatches_ping :
    ¬ Dispatches [pingType] GameDB.readUInt32 [2, 0, 0, 0]
      (onRecvPacket (.init [pingType]) GameDB.readUInt32 [2, 0, 0, 0]) := by
  intro h
  have hreg : registered [pingType] (GameDB.readUInt32 ([2, 0, 0, 0] : List UInt8)).1 =
      some pingType := rfl
  simp only [Dispatches, hreg] at h
  have hthrows : (onRecvPacket (.init [pingType]) GameDB.readUInt32 [2, 0, 0, 0]).1 = [] := rfl
  rw [h] at hthrows
  exact nomatch hthrows

end RIOServer

end DdingGameServer
