import DdingGameServer.Common.KeyMap
import Mathlib.Data.Nat.Notation
/-!
# DataContainer — objects loaded from a file

`LoadFromJsonFile` makes one object for each element of a JSON file and
`AddToDataContainerFromJsonFile` adds them to the container of their class, each under its key. An
object whose key is taken is not added, and the ones after it are: what the function returns says
whether there was one, and `addToDataContainerFromJsonFile_fills` what the container then finds.

The JSON library and the file system are parameters. A class is given by its name, its key and how
an object of it is loaded; `zoneDataClass` is the one that is registered.
-/

namespace DdingGameServer

namespace ScriptToObject

/-- What is used of the JSON library: `>>`, which parses a text, the elements a range-for visits,
the field of a name, and the values a field is read as; `none` where it throws. -/
structure JsonLibrary (Json : Type) where
  parse : String → Option Json
  elements : Json → List Json
  field : Json → String → Option Json
  getInt : Json → Option Int32
  getUInt : Json → Option UInt32
  getString : Json → Option String

/-- An object made by `new`: where it is and what it holds. -/
structure DataObject (Data : Type) where
  pointer : ℕ
  data : Data
  deriving DecidableEq, Repr

/-- **A class of data objects**: `GetObjectTypeName`, the key of `SET_DATA_OBJECT` and
`LoadFromJson`. -/
structure DataClass (Json Key Data : Type) where
  objectTypeName : String
  key : Data → Key
  loadFromJson : Data → Json → Option Data

/-- `DataObjectGenerator`: what the constructor of each registered class makes. -/
structure DataObjectGenerator (Data : Type) where
  constructorMap : KeyMap String Data

/-- `AddDataClass`. -/
def DataObjectGenerator.addDataClass {Data : Type} (g : DataObjectGenerator Data)
    (dataClassName : String) (constructor : Data) : DataObjectGenerator Data × Bool :=
  (⟨g.constructorMap.insert dataClassName constructor⟩,
    (g.constructorMap.find dataClassName).isNone)

/-- `MakeDataObject`, before the object has a place; `none` is the null pointer. -/
def DataObjectGenerator.makeDataObject {Data : Type} (g : DataObjectGenerator Data)
    (dataClassName : String) : Option Data :=
  g.constructorMap.find dataClassName

/-- **`DataContainer`**. -/
structure DataContainer (Key Data : Type) where
  dataMap : KeyMap Key (DataObject Data)

namespace DataContainer

variable {Key Data : Type} [DecidableEq Key]

/-- `FindData`; `none` is the null pointer. -/
def findData (m : DataContainer Key Data) (key : Key) : Option (DataObject Data) :=
  m.dataMap.find key

/-- `AddData`. -/
def addData (m : DataContainer Key Data) (key : Key) (value : DataObject Data) :
    DataContainer Key Data × Bool :=
  (⟨m.dataMap.insert key value⟩, (m.dataMap.find key).isNone)

end DataContainer

section Loading

variable {Json Key Data : Type} [DecidableEq Key] (lib : JsonLibrary Json)
  (files : String → Option String) (g : DataObjectGenerator Data) (cls : DataClass Json Key Data)

/-- The key of an object. -/
def DataClass.keyOf (object : DataObject Data) : Key := cls.key object.data

/-- `AddDataToDataContainer`. -/
def DataClass.addDataToDataContainer (m : DataContainer Key Data) (object : DataObject Data) :
    DataContainer Key Data × Bool :=
  match m.addData (cls.keyOf object) object with
  | (m, false) => (m, false)
  | (m, true) => (m, true)

/-- How `LoadFromJsonFile` ends. -/
inductive Loading (Data : Type)
  | nullopt
  | objectList (objects : List (DataObject Data))
  /-- A null object is called, or an exception other than `parse_error` leaves the function. -/
  | failed

/-- The loop of `LoadFromJsonFile`, from the first free place on. -/
def makeObjects (pointer : ℕ) : List Json → Option (List (DataObject Data))
  | [] => some []
  | json :: rest =>
    match g.makeDataObject cls.objectTypeName with
    | none => none
    | some object =>
      match cls.loadFromJson object json with
      | none => none
      | some data => (makeObjects (pointer + 1) rest).map (⟨pointer, data⟩ :: ·)

/-- `LoadFromJsonFile`. -/
def loadFromJsonFile (pointer : ℕ) (filePath : String) : Loading Data :=
  match files filePath with
  | none => .nullopt
  | some jsonFile =>
    match lib.parse jsonFile with
    | none => .nullopt
    | some jsonData =>
      match makeObjects g cls pointer (lib.elements jsonData) with
      | none => .failed
      | some objectList => .objectList objectList

/-- The loop of `AddToDataContainerFromJsonFile`, with its `returnValue`. -/
def addObjects (m : DataContainer Key Data) (returnValue : Bool) :
    List (DataObject Data) → DataContainer Key Data × Bool
  | [] => (m, returnValue)
  | object :: rest =>
    match cls.addDataToDataContainer m object with
    | (m, false) => addObjects m false rest
    | (m, true) => addObjects m returnValue rest

/-- `AddToDataContainerFromJsonFile`, with the container it leaves; `none` where loading fails. -/
def addToDataContainerFromJsonFile (pointer : ℕ) (m : DataContainer Key Data) (filePath : String) :
    Option (DataContainer Key Data × Bool) :=
  match loadFromJsonFile lib files g cls pointer filePath with
  | .nullopt => some (m, false)
  | .objectList objectList => some (addObjects cls m true objectList)
  | .failed => none

/-- **The container is filled** from `m` with the objects of a file: true is returned where their
keys are pairwise distinct and free, and each key finds what it found before, or else the first
object that has it. -/
structure Fills (m : DataContainer Key Data) (objects : List (DataObject Data))
    (m' : DataContainer Key Data) (returnValue : Bool) : Prop where
  returns : returnValue = true ↔
    (objects.map cls.keyOf).Nodup ∧ ∀ object ∈ objects, m.findData (cls.keyOf object) = none
  finds : ∀ key, m'.findData key =
    (m.findData key).or (objects.find? fun object => cls.keyOf object = key)
  others : ∀ key, key ∉ objects.map cls.keyOf → m'.findData key = m.findData key

end Loading

section Results

variable {Json Key Data : Type} [DecidableEq Key] {lib : JsonLibrary Json}
  {files : String → Option String} {g : DataObjectGenerator Data} {cls : DataClass Json Key Data}
  {m : DataContainer Key Data} {object : DataObject Data} {objects : List (DataObject Data)}
  {returnValue : Bool} {pointer : ℕ} {filePath : String}

/-- One object is inserted under its key, and the answer is whether the key was free. -/
theorem addDataToDataContainer_eq :
    cls.addDataToDataContainer m object =
      (⟨m.dataMap.insert (cls.keyOf object) object⟩,
        (m.dataMap.find (cls.keyOf object)).isNone) := by
  unfold DataClass.addDataToDataContainer DataContainer.addData
  cases (m.dataMap.find (cls.keyOf object)).isNone <;> rfl

/-- **The loop inserts the list, and its flag stays up as long as the keys are free.** -/
theorem addObjects_eq (cls : DataClass Json Key Data) (m : DataContainer Key Data)
    (returnValue : Bool) (objects : List (DataObject Data)) :
    (addObjects cls m returnValue objects).1 = ⟨m.dataMap.insertAll cls.keyOf objects⟩ ∧
      ((addObjects cls m returnValue objects).2 = true ↔
        returnValue = true ∧ m.dataMap.Admits cls.keyOf objects) := by
  induction objects generalizing m returnValue with
  | nil => exact ⟨rfl, (and_iff_left KeyMap.admits_nil).symm⟩
  | cons object objects ih =>
    rw [addObjects, addDataToDataContainer_eq, KeyMap.insertAll_cons, KeyMap.admits_cons]
    cases hfree : m.dataMap.find (cls.keyOf object) with
    | none =>
      obtain ⟨hmap, hflag⟩ := ih ⟨m.dataMap.insert (cls.keyOf object) object⟩ returnValue
      exact ⟨hmap, hflag.trans (and_congr_right fun _ => (and_iff_right rfl).symm)⟩
    | some taken =>
      obtain ⟨hmap, hflag⟩ := ih ⟨m.dataMap.insert (cls.keyOf object) object⟩ false
      exact ⟨hmap, hflag.trans (iff_of_false (fun h => nomatch h.1) fun h => nomatch h.2.1)⟩

/-- What fills the container is the list inserted. -/
theorem fills_addObjects :
    Fills cls m objects (addObjects cls m true objects).1 (addObjects cls m true objects).2 := by
  obtain ⟨hmap, hflag⟩ := addObjects_eq cls m true objects
  have hfinds : ∀ key, (addObjects cls m true objects).1.findData key =
      (m.findData key).or (objects.find? fun object => cls.keyOf object = key) := by
    intro key
    rw [hmap]
    exact KeyMap.find_insertAll
  refine ⟨hflag.trans (and_iff_right rfl), hfinds, fun key hkey => ?_⟩
  have hnone : (objects.find? fun object => cls.keyOf object = key) = none := by
    rw [List.find?_eq_none]
    intro object hobject heq
    exact hkey (List.mem_map.mpr ⟨object, hobject, of_decide_eq_true heq⟩)
  rw [hfinds, hnone, Option.or_none]

/-- A file that cannot be opened or parsed leaves the container as it is. -/
theorem addToDataContainerFromJsonFile_of_nullopt
    (hload : loadFromJsonFile lib files g cls pointer filePath = .nullopt) :
    addToDataContainerFromJsonFile lib files g cls pointer m filePath = some (m, false) := by
  rw [addToDataContainerFromJsonFile, hload]

/-- **Loading a data file fills the container**, for every container and every list of objects that
is loaded. -/
theorem addToDataContainerFromJsonFile_fills
    (hload : loadFromJsonFile lib files g cls pointer filePath = .objectList objects) :
    ∃ m' returnValue,
      addToDataContainerFromJsonFile lib files g cls pointer m filePath = some (m', returnValue) ∧
        Fills cls m objects m' returnValue := by
  refine ⟨_, _, ?_, fills_addObjects⟩
  rw [addToDataContainerFromJsonFile, hload]

omit [DecidableEq Key] in
/-- The elements of a registered class are all made, one object each and in order. -/
theorem makeObjects_of_registered {fresh : Data} {l : List Json} (pointer : ℕ)
    (hclass : g.makeDataObject cls.objectTypeName = some fresh)
    (hjson : ∀ json ∈ l, (cls.loadFromJson fresh json).isSome = true) :
    ∃ objects, makeObjects g cls pointer l = some objects ∧
      objects.map DataObject.data = l.filterMap (cls.loadFromJson fresh) := by
  induction l generalizing pointer with
  | nil => exact ⟨[], rfl, rfl⟩
  | cons json l ih =>
    obtain ⟨hhead, htail⟩ := List.forall_mem_cons.mp hjson
    obtain ⟨data, hdata⟩ := Option.isSome_iff_exists.mp hhead
    obtain ⟨objects, hobjects, hmap⟩ := ih (pointer + 1) htail
    refine ⟨⟨pointer, data⟩ :: objects, ?_, ?_⟩
    · simp only [makeObjects, hclass, hdata, hobjects, Option.map_some]
    · rw [List.map_cons, hmap, List.filterMap_cons_some hdata]

end Results

/-! ## The registered class -/

/-- `Position`. -/
structure Position where
  x : UInt32
  y : UInt32
  deriving DecidableEq, Repr

abbrev ZoneDataId := Int32

/-- `ZoneData`. -/
structure ZoneData where
  id : ZoneDataId
  zoneName : String
  minPosition : Position
  maxPosition : Position
  deriving DecidableEq, Repr

section ZoneData

variable {Json : Type} (lib : JsonLibrary Json)

/-- `from_json`, of a `Position`. -/
def Position.fromJson (jsonObject : Json) : Option Position := do
  let x ← (lib.field jsonObject "x").bind lib.getUInt
  let y ← (lib.field jsonObject "y").bind lib.getUInt
  return ⟨x, y⟩

/-- `LoadFromJson` of a `ZoneData`. -/
def ZoneData.loadFromJson (_ : ZoneData) (jsonObject : Json) : Option ZoneData := do
  let id ← (lib.field jsonObject "id").bind lib.getInt
  let zoneName ← (lib.field jsonObject "zoneName").bind lib.getString
  let minPosition ← (lib.field jsonObject "minPosition").bind (Position.fromJson lib)
  let maxPosition ← (lib.field jsonObject "maxPosition").bind (Position.fromJson lib)
  return ⟨id, zoneName, minPosition, maxPosition⟩

/-- The class of `ZoneData`. -/
def zoneDataClass : DataClass Json ZoneDataId ZoneData where
  objectTypeName := "ZoneData"
  key := ZoneData.id
  loadFromJson := ZoneData.loadFromJson lib

/-- `DATA_REGISTER`, where `new ZoneData` finds `fresh` in memory. -/
def dataRegister (fresh : ZoneData) : DataObjectGenerator ZoneData :=
  (DataObjectGenerator.addDataClass ⟨.empty⟩ "ZoneData" fresh).1

/-- A file of zones is loaded where every element has the four fields. -/
theorem loadFromJsonFile_zoneData {files : String → Option String} {fresh : ZoneData} {pointer : ℕ}
    {filePath jsonFile : String} {jsonData : Json} (hfile : files filePath = some jsonFile)
    (hparse : lib.parse jsonFile = some jsonData)
    (hjson : ∀ json ∈ lib.elements jsonData, (fresh.loadFromJson lib json).isSome = true) :
    ∃ objects,
      loadFromJsonFile lib files (dataRegister fresh) (zoneDataClass lib) pointer filePath =
        .objectList objects ∧
      objects.map DataObject.data = (lib.elements jsonData).filterMap (fresh.loadFromJson lib) := by
  have hclass : (dataRegister fresh).makeDataObject (zoneDataClass lib).objectTypeName =
      some fresh := rfl
  obtain ⟨objects, hobjects, hmap⟩ := makeObjects_of_registered pointer hclass hjson
  refine ⟨objects, ?_, hmap⟩
  simp only [loadFromJsonFile, hfile, hparse, hobjects]

end ZoneData

/-- The JSON values a file of zones is made of. -/
inductive JsonValue
  | number (n : Int)
  | string (s : String)
  | array (l : List JsonValue)
  | object (fields : List (String × JsonValue))

/-- The library on these values, over a parser. -/
def jsonValues (parse : String → Option JsonValue) : JsonLibrary JsonValue where
  parse := parse
  elements
    | .array l => l
    | .object fields => fields.map Prod.snd
    | json => [json]
  field
    | .object fields, name => fields.lookup name
    | _, _ => none
  getInt
    | .number n => some (Int32.ofInt n)
    | _ => none
  getUInt
    | .number n => some (UInt32.ofInt n)
    | _ => none
  getString
    | .string s => some s
    | _ => none

/-- A zone of one point. -/
def zoneValue (id : Int) (zoneName : String) : JsonValue :=
  let position := JsonValue.object [("x", .number 0), ("y", .number 0)]
  .object [("id", .number id), ("zoneName", .string zoneName), ("minPosition", position),
    ("maxPosition", position)]

/-- The text of two zones with ids 1 and 2. -/
def zoneText : String :=
  "[\x7b\"id\":1,\"zoneName\":\"town\",\"minPosition\":\x7b\"x\":0,\"y\":0\x7d," ++
    "\"maxPosition\":\x7b\"x\":0,\"y\":0\x7d\x7d," ++
    "\x7b\"id\":2,\"zoneName\":\"field\",\"minPosition\":\x7b\"x\":0,\"y\":0\x7d," ++
    "\"maxPosition\":\x7b\"x\":0,\"y\":0\x7d\x7d]"

/-- The library that parses it. -/
def zoneLibrary : JsonLibrary JsonValue :=
  jsonValues fun text =>
    if text = zoneText then some (.array [zoneValue 1 "town", zoneValue 2 "field"]) else none

/-- Two zones are loaded into a container that has one of them. -/
theorem addToDataContainerFromJsonFile_fills_zones :
    ∃ m' returnValue,
      addToDataContainerFromJsonFile zoneLibrary (fun _ => some zoneText)
          (dataRegister ⟨0, "", ⟨0, 0⟩, ⟨0, 0⟩⟩) (zoneDataClass zoneLibrary) 10
          ⟨KeyMap.empty.assign 2 ⟨3, ⟨2, "cave", ⟨0, 0⟩, ⟨0, 0⟩⟩⟩⟩ "ZoneData.json" =
        some (m', returnValue) ∧
      Fills (zoneDataClass zoneLibrary) ⟨KeyMap.empty.assign 2 ⟨3, ⟨2, "cave", ⟨0, 0⟩, ⟨0, 0⟩⟩⟩⟩
        [⟨10, ⟨1, "town", ⟨0, 0⟩, ⟨0, 0⟩⟩⟩, ⟨11, ⟨2, "field", ⟨0, 0⟩, ⟨0, 0⟩⟩⟩] m'
        returnValue := by
  refine addToDataContainerFromJsonFile_fills ?_
  have hparse : zoneLibrary.parse zoneText =
      some (.array [zoneValue 1 "town", zoneValue 2 "field"]) := by
    simp only [zoneLibrary, jsonValues, if_true]
  simp only [loadFromJsonFile, hparse]
  rfl

end ScriptToObject

end DdingGameServer
