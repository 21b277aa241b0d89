import Mathlib.Data.String.Basic
import DdingGameServer.Common.Firsts
import DdingGameServer.Common.OrderedMap
/-!
# Reflection — the properties of a class

A `TypeInfo` collects the properties its class registers when the program starts: in a map by name,
which refuses a name it has, and their type names in a vector, which is only added to when the map
has accepted the name. The stored procedures and the result types of DBServer are bound by that
vector, their parameters are checked by that map.

The names are of any ordered type, `std::string` in the order of its characters among them.
-/

namespace DdingGameServer

namespace Reflection

variable {Name : Type} [LinearOrder Name]

abbrev PropertyTypeName := String

/-- A `Property`; `type` is the address of its owner. -/
structure Property (Name : Type) where
  name : Name
  typeName : PropertyTypeName
  type : ℕ
  deriving DecidableEq, Repr

/-- A `TypeInfo`; `super` is the address of another, or null. -/
structure TypeInfo (Name : Type) [LinearOrder Name] where
  hashCode : UInt64
  name : String
  fullName : String
  super : Option ℕ
  propertyMap : OrderedMap Name (Property Name)
  propertyTypeNameList : List PropertyTypeName

/-- A `TypeInfoInitializer`. -/
structure TypeInfoInitializer where
  name : String
  super : Option ℕ
  deriving DecidableEq, Repr

/-- What `typeid` says of a class. -/
structure TypeId where
  hashCode : UInt64
  name : String
  deriving DecidableEq, Repr

namespace TypeInfo

/-- The constructor. -/
def new (typeId : TypeId) (initializer : TypeInfoInitializer) : TypeInfo Name where
  hashCode := typeId.hashCode
  name := initializer.name
  fullName := typeId.name
  super := initializer.super
  propertyMap := .empty
  propertyTypeNameList := []

/-- `AddProperty`, behind its check. -/
def emplaceProperty (typeInfo : TypeInfo Name) (inProperty : Property Name) : TypeInfo Name :=
  { typeInfo with
    propertyMap := typeInfo.propertyMap.emplace inProperty.name inProperty
    propertyTypeNameList := typeInfo.propertyTypeNameList ++ [inProperty.typeName] }

/-- `AddProperty`. -/
def addProperty (typeInfo : TypeInfo Name) (inProperty : Property Name) : TypeInfo Name :=
  if typeInfo.propertyMap.size ≠ 0 then
    if (typeInfo.propertyMap.find inProperty.name).isSome then typeInfo
    else typeInfo.emplaceProperty inProperty
  else typeInfo.emplaceProperty inProperty

/-- `GetAllProperties`, into an empty list. -/
def getAllProperties (typeInfo : TypeInfo Name) : List (Name × PropertyTypeName) :=
  typeInfo.propertyMap.entries.map fun itor => (itor.1, itor.2.typeName)

/-- `GetAllPropertyTypeName`. -/
def getAllPropertyTypeName (typeInfo : TypeInfo Name) : List PropertyTypeName :=
  typeInfo.propertyTypeNameList

/-- `GetNumOfProperty`. -/
def getNumOfProperty (typeInfo : TypeInfo Name) : ℕ := typeInfo.propertyMap.size

end TypeInfo

/-- `find` and `erase`: the text without the first occurrence of a pattern. -/
def eraseFirst (pattern : List Char) : List Char → List Char
  | [] => []
  | c :: rest =>
    if pattern <+: c :: rest then (c :: rest).drop pattern.length
    else c :: eraseFirst pattern rest

/-- The property `PropertyRegister` makes of a member, for the class whose `TypeInfo` is at
`inTypeInfo`. -/
def memberProperty (inTypeInfo : ℕ) (inName : Name) (inTypeName : String) : Property Name where
  name := inName
  typeName := String.ofList (eraseFirst "class ".toList inTypeName.toList)
  type := inTypeInfo

/-- The constructor of `PropertyRegister`, with that of `Property`. -/
def propertyRegister (inTypeInfo : ℕ) (typeInfo : TypeInfo Name) (inName : Name)
    (inTypeName : String) : TypeInfo Name :=
  typeInfo.addProperty (memberProperty inTypeInfo inName inTypeName)

/-- The `TypeInfo` of a class with these members, once they have all registered. -/
def registerClass (typeId : TypeId) (initializer : TypeInfoInitializer) (inTypeInfo : ℕ)
    (members : List (Name × String)) : TypeInfo Name :=
  members.foldl (fun typeInfo m => propertyRegister inTypeInfo typeInfo m.1 m.2)
    (.new typeId initializer)

/-! ## What is expected -/

/-- **The containers are consistent** with the properties registered so far. -/
structure Consistent (registered : List (Property Name)) (typeInfo : TypeInfo Name) : Prop where
  /-- A name has the property of its first registration. -/
  find : ∀ name, typeInfo.propertyMap.find name = registered.find? fun p => p.name = name
  /-- The type names are those of the first registrations, in their order. -/
  typeNames : typeInfo.getAllPropertyTypeName =
    (firsts Property.name registered).map Property.typeName
  /-- There are as many properties as type names. -/
  count : typeInfo.getNumOfProperty = typeInfo.getAllPropertyTypeName.length
  /-- A name registered once more changes nothing. -/
  repetition : ∀ p : Property Name, p.name ∈ registered.map Property.name →
    typeInfo.addProperty p = typeInfo

/-! ## A registration -/

variable {typeInfo : TypeInfo Name} {registered : List (Property Name)} {p : Property Name}

/-- The check for an empty map makes no difference. -/
theorem addProperty_eq : typeInfo.addProperty p =
    if p.name ∈ typeInfo.propertyMap.entries.map Prod.fst then typeInfo
    else typeInfo.emplaceProperty p := by
  unfold TypeInfo.addProperty
  by_cases hsize : typeInfo.propertyMap.size = 0
  · have hnil : typeInfo.propertyMap.entries = [] := List.length_eq_zero_iff.mp hsize
    rw [if_neg (not_not.mpr hsize), hnil, List.map_nil, if_neg List.not_mem_nil]
  · rw [if_pos hsize]
    simp only [OrderedMap.isSome_find]

/-- **The invariant**: the map has the first registrations, under their names, and the vector their
type names. -/
structure HoldsFirsts (registered : List (Property Name)) (typeInfo : TypeInfo Name) : Prop where
  entries : typeInfo.propertyMap.entries.Perm
    ((firsts Property.name registered).map fun p => (p.name, p))
  typeNames : typeInfo.propertyTypeNameList =
    (firsts Property.name registered).map Property.typeName

theorem HoldsFirsts.mem_keys (h : HoldsFirsts registered typeInfo) {name : Name} :
    name ∈ typeInfo.propertyMap.entries.map Prod.fst ↔ name ∈ registered.map Property.name := by
  rw [(h.entries.map Prod.fst).mem_iff, List.map_map]
  exact mem_map_firsts

/-- **One step.** -/
theorem HoldsFirsts.addProperty (h : HoldsFirsts registered typeInfo) :
    HoldsFirsts (registered ++ [p]) (typeInfo.addProperty p) := by
  rw [addProperty_eq]
  split
  · rename_i hmem
    have hfirsts : firsts Property.name (registered ++ [p]) = firsts Property.name registered := by
      rw [firsts_append_singleton, if_pos (h.mem_keys.mp hmem)]
    exact ⟨hfirsts ▸ h.entries, hfirsts ▸ h.typeNames⟩
  · rename_i hmem
    have hfirsts : firsts Property.name (registered ++ [p]) =
        firsts Property.name registered ++ [p] := by
      rw [firsts_append_singleton, if_neg (mt h.mem_keys.mpr hmem)]
    constructor
    · rw [hfirsts, List.map_append]
      refine (OrderedMap.perm_insertEntry hmem).trans ?_
      exact (h.entries.cons _).trans (List.perm_append_singleton _ _).symm
    · rw [hfirsts, List.map_append, ← h.typeNames]
      rfl

/-- **All of them.** -/
theorem holdsFirsts_foldl (typeId : TypeId) (initializer : TypeInfoInitializer)
    (registered : List (Property Name)) :
    HoldsFirsts registered (registered.foldl TypeInfo.addProperty (.new typeId initializer)) := by
  induction registered using List.reverseRecOn with
  | nil => exact ⟨.refl _, rfl⟩
  | append_singleton registered p ih =>
    rw [List.foldl_append]
    exact ih.addProperty

/-- A class is a sequence of registrations. -/
theorem registerClass_eq (typeId : TypeId) (initializer : TypeInfoInitializer) (inTypeInfo : ℕ)
    (members : List (Name × String)) : registerClass typeId initializer inTypeInfo members =
      (members.map fun m => memberProperty inTypeInfo m.1 m.2).foldl TypeInfo.addProperty
        (.new typeId initializer) := by
  rw [registerClass, List.foldl_map]
  rfl

/-! ## What follows -/

theorem HoldsFirsts.find (h : HoldsFirsts registered typeInfo) (name : Name) :
    typeInfo.propertyMap.find name = registered.find? fun p => p.name = name := by
  refine Option.ext fun p => ?_
  rw [OrderedMap.find_eq_some_iff, h.entries.mem_iff, List.mem_map]
  constructor
  · rintro ⟨q, hq, heq⟩
    obtain ⟨rfl, rfl⟩ := Prod.mk.inj heq
    exact mem_firsts_iff.mp hq
  · intro hfind
    obtain rfl : p.name = name := by simpa using List.find?_some hfind
    exact ⟨p, mem_firsts_iff.mpr hfind, rfl⟩

/-- **The two containers of a class stay consistent**, whatever is registered and however often. -/
theorem consistent_foldl_addProperty (typeId : TypeId) (initializer : TypeInfoInitializer)
    (registered : List (Property Name)) :
    Consistent registered (registered.foldl TypeInfo.addProperty (.new typeId initializer)) := by
  have h := holdsFirsts_foldl typeId initializer registered
  constructor
  · exact h.find
  · exact h.typeNames
  · rw [TypeInfo.getNumOfProperty, TypeInfo.getAllPropertyTypeName, h.typeNames, List.length_map]
    exact h.entries.length_eq.trans (List.length_map _)
  · intro p hp
    rw [addProperty_eq, if_pos (h.mem_keys.mpr hp)]

/-- The stored procedure `test`. -/
example : (registerClass ⟨0, "class SP::test"⟩ ⟨"test", some 1⟩ 2
    [("id3", "int"), ("teststring", "class FWString")]).getAllProperties =
      [("id3", "int"), ("teststring", "FWString")] := by decide

end Reflection

end DdingGameServer
