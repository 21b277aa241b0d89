import Mathlib.Data.List.Forall2
import DdingGameServer.ODBC.Parameters
import DdingGameServer.Reflection.TypeInfo
/-!
# Reflection — the two listings of a class

`CallSPDirectWithSPObject` binds the members of a stored procedure in the order of
`GetAllPropertyTypeName`, which is that of their registration. `ProcedureParameterTest` compares the
columns of the procedure, in their order, with `GetAllProperties`, and that goes through a map in
the order of the names. The two are the same list only for a class whose types come out the same
both ways.
-/

namespace DdingGameServer

namespace Reflection

open ODBC

variable {Name : Type}

/-! ## Binding -/

/-- `cTypeMap`. -/
def cTypeMap : List (String × Int16) :=
  [("bool", -7), ("short", -15), ("int", -16), ("float", 7), ("double", 8), ("long long", -25),
    ("__int64", -25), ("std::wstring", -8), ("WCHAR[]", -8), ("const WCHAR*", -8),
    ("FWString", -8), ("FString", 1)]

/-- `sqlTypeMap`; `SQL_IS_SMALLINT` is `-8`. -/
def sqlTypeMap : List (String × Int16) :=
  [("bool", -7), ("short", -8), ("int", 4), ("float", 7), ("double", 8), ("long long", -5),
    ("__int64", -5), ("std::wstring", -9), ("WCHAR[]", -9), ("const WCHAR*", -9),
    ("FWString", -9), ("FString", 12)]

/-- `GetCType`. -/
def getCType (typeString : String) : Int16 := (cTypeMap.lookup typeString).getD 0

/-- `GetSQLType`. -/
def getSQLType (typeString : String) : Int16 := (sqlTypeMap.lookup typeString).getD 0

/-- `GetPointerFromPointerTypeString`; `getCString` says where the characters of the string at an
address are. -/
def getPointerFromPointerTypeString (getCString : ℕ → ℕ) (typeString : String) (input : ℕ) : ℕ :=
  if typeString = "FWString" then getCString input
  else if typeString = "FString" then getCString input
  else input

/-- The call of `SQLBindParameter` for a property. -/
def bindingOf (getCString : ℕ → ℕ) (paramLocation : ℕ) (property : PropertyTypeName)
    (realPointer : ℕ) : Binding where
  parameterNumber := UInt16.ofNat paramLocation
  valueType := getCType property
  parameterType := getSQLType property
  parameterValuePtr := getPointerFromPointerTypeString getCString property realPointer

/-- The calls of `SQLBindParameter` in their order, and what the loop over them comes to: nothing
the language defines if `realPointerList` is read behind its end. -/
structure BindLoop where
  returned : Option Bool
  calls : List Binding
  deriving DecidableEq, Repr

/-- The loop over `propertyList`. -/
def bindLoop (sqlBindParameter : Binding → SqlReturn) (getCString : ℕ → ℕ)
    (realPointerList : List ℕ) : ℕ → List PropertyTypeName → BindLoop
  | _, [] => ⟨some true, []⟩
  | paramLocation, property :: rest =>
    match realPointerList[paramLocation - 1]? with
    | none => ⟨none, []⟩
    | some realPointer =>
      let binding := bindingOf getCString paramLocation property realPointer
      if sqlIsSuccess (sqlBindParameter binding) = false then ⟨some false, [binding]⟩
      else
        let next := bindLoop sqlBindParameter getCString realPointerList (paramLocation + 1) rest
        ⟨next.returned, binding :: next.calls⟩

/-- `CallSPDirectWithSPObject`: its loop, and the text given to `SQLExecDirect`. -/
def callSPDirectWithSPObject [LinearOrder Name] (sqlBindParameter : Binding → SqlReturn)
    (sqlExecDirect : WString → SqlReturn) (getCString : ℕ → ℕ)
    (procedureInfo : Option ProcedureInfo) (typeInfo : TypeInfo Name)
    (realPointerList : List ℕ) : BindLoop × Option WString :=
  match procedureInfo with
  | none => (⟨some false, []⟩, none)
  | some info =>
    let loop := bindLoop sqlBindParameter getCString realPointerList 1
      typeInfo.getAllPropertyTypeName
    if loop.returned = some true then
      (⟨some (sqlIsSuccess (sqlExecDirect info.sql)), loop.calls⟩, some info.sql)
    else (loop, none)

/-! ## The check of the test -/

/-- `IsSameType`. -/
def isSameType (lhs rhs : String) : Bool :=
  let string := if lhs = "FString" then rhs == "varchar"
    else if rhs = "FString" then lhs == "varchar" else false
  let wstring := if lhs = "FWString" then rhs == "nvarchar"
    else if rhs = "FWString" then lhs == "nvarchar" else false
  -- the other way round asks for the same pair once more
  let int64 := if lhs = "__int64" then rhs == "bigint"
    else if rhs = "bigint" then lhs == "__int64" else false
  string || wstring || int64

/-- A property type and a column type that `columnMatch` lets pass. -/
def sameColumn (cppType dbType : String) : Bool := cppType = dbType || isSameType cppType dbType

/-- `columnMatch`. -/
def columnMatch (cppProperties : List (Name × PropertyTypeName))
    (dbProperties : List (String × String)) : Bool :=
  cppProperties.length = dbProperties.length &&
    (cppProperties.zip dbProperties).all fun pair => sameColumn pair.1.2 pair.2.2

/-! ## What is expected -/

/-- The codes a property is bound with. -/
def bindingCodes (property : PropertyTypeName) : Int16 × Int16 :=
  (getCType property, getSQLType property)

/-- **The two listings agree**: they have the same types in the same order, so the members are bound
in the order of `GetAllProperties`, as many as are bound and all of them when the call is made, and
what `columnMatch` compares with the columns are the types in the order in which they are bound. -/
structure ListingsAgree [LinearOrder Name] (typeInfo : TypeInfo Name) : Prop where
  listed : typeInfo.getAllProperties.map Prod.snd = typeInfo.getAllPropertyTypeName
  bound : ∀ sqlBindParameter sqlExecDirect getCString procedureInfo realPointerList,
    let (loop, sent) := callSPDirectWithSPObject sqlBindParameter sqlExecDirect getCString
      procedureInfo typeInfo realPointerList
    loop.calls.map (fun b => (b.valueType, b.parameterType)) <+:
        typeInfo.getAllProperties.map (fun p => bindingCodes p.2) ∧
      (sent.isSome → loop.calls.length = typeInfo.getAllProperties.length)
  compared : ∀ dbProperties, columnMatch typeInfo.getAllProperties dbProperties = true ↔
    List.Forall₂ (fun property column => sameColumn property column = true)
      typeInfo.getAllPropertyTypeName (dbProperties.map Prod.snd)

/-- **Name by name the same type**: with `n` of the registered names below it, the first
registration of a name has the type of the first registration that comes behind `n` others. -/
def TypesInNameOrder [LinearOrder Name] (registered : List (Property Name)) : Prop :=
  ∀ p ∈ firsts Property.name registered,
    ((firsts Property.name registered).map Property.typeName)[
      (firsts Property.name registered).countP fun q => q.name < p.name]? = some p.typeName

/-! ## The order of binding -/

variable {sqlBindParameter : Binding → SqlReturn} {sqlExecDirect : WString → SqlReturn}
  {getCString : ℕ → ℕ} {realPointerList : List ℕ} {paramLocation : ℕ}
  {propertyList : List PropertyTypeName}

/-- **The loop binds in the order of its list.** -/
theorem calls_bindLoop :
    (bindLoop sqlBindParameter getCString realPointerList paramLocation propertyList).calls.map
      (fun b => (b.valueType, b.parameterType)) <+: propertyList.map bindingCodes := by
  induction propertyList generalizing paramLocation with
  | nil => exact List.prefix_rfl
  | cons property rest ih =>
    rw [bindLoop]
    split
    · exact List.nil_prefix
    · dsimp only
      split
      · exact (List.prefix_cons_inj _).mpr List.nil_prefix
      · exact (List.prefix_cons_inj _).mpr ih

/-- One that returns with success has bound all of it. -/
theorem length_calls_bindLoop (h : (bindLoop sqlBindParameter getCString realPointerList
    paramLocation propertyList).returned = some true) :
    (bindLoop sqlBindParameter getCString realPointerList paramLocation
      propertyList).calls.length = propertyList.length := by
  induction propertyList generalizing paramLocation with
  | nil => rfl
  | cons property rest ih =>
    rw [bindLoop] at h ⊢
    split at h
    · cases h
    · rename_i realPointer hpointer
      dsimp only at h
      split at h
      · cases h
      · rename_i hbind
        rw [if_neg hbind, List.length_cons, List.length_cons, ih h]

/-- **The call binds in the order of `GetAllPropertyTypeName`**, and all of it before it is made. -/
theorem calls_callSPDirectWithSPObject [LinearOrder Name] {procedureInfo : Option ProcedureInfo}
    {typeInfo : TypeInfo Name} :
    let (loop, sent) := callSPDirectWithSPObject sqlBindParameter sqlExecDirect getCString
      procedureInfo typeInfo realPointerList
    loop.calls.map (fun b => (b.valueType, b.parameterType)) <+:
        typeInfo.getAllPropertyTypeName.map bindingCodes ∧
      (sent.isSome → loop.calls.length = typeInfo.getAllPropertyTypeName.length) := by
  unfold callSPDirectWithSPObject
  cases procedureInfo with
  | none => exact ⟨List.nil_prefix, fun h => absurd h Bool.false_ne_true⟩
  | some info =>
    dsimp only
    split
    · rename_i hreturned
      exact ⟨calls_bindLoop, fun _ => length_calls_bindLoop hreturned⟩
    · exact ⟨calls_bindLoop, fun h => absurd h Bool.false_ne_true⟩

/-- **`columnMatch` compares place by place.** -/
theorem columnMatch_iff {cppProperties : List (Name × PropertyTypeName)}
    {dbProperties : List (String × String)} : columnMatch cppProperties dbProperties = true ↔
      List.Forall₂ (fun property column => sameColumn property column = true)
        (cppProperties.map Prod.snd) (dbProperties.map Prod.snd) := by
  rw [columnMatch, Bool.and_eq_true, decide_eq_true_iff, List.all_eq_true, List.forall₂_map_left_iff,
    List.forall₂_map_right_iff, List.forall₂_iff_zip]
  refine and_congr_right fun _ => ⟨fun h a b hmem => h (a, b) hmem, ?_⟩
  rintro h ⟨a, b⟩ hmem
  exact h hmem

/-! ## The listings -/

variable [LinearOrder Name] {typeInfo : TypeInfo Name} {registered : List (Property Name)}

/-- What follows where the types are listed in the same order. -/
theorem listingsAgree_of_listed
    (h : typeInfo.getAllProperties.map Prod.snd = typeInfo.getAllPropertyTypeName) :
    ListingsAgree typeInfo := by
  have hcodes : typeInfo.getAllProperties.map (fun p => bindingCodes p.2) =
      typeInfo.getAllPropertyTypeName.map bindingCodes := by
    rw [← h, List.map_map]
    rfl
  have hlength : typeInfo.getAllProperties.length = typeInfo.getAllPropertyTypeName.length := by
    rw [← h, List.length_map]
  refine ⟨h, ?_, fun dbProperties => ?_⟩
  · rw [hcodes, hlength]
    intros
    exact calls_callSPDirectWithSPObject
  · rw [columnMatch_iff, h]

/-- **The place of a name in the map** is the number of registered names below it. -/
theorem HoldsFirsts.countP_entries (h : HoldsFirsts registered typeInfo) (name : Name) :
    (typeInfo.propertyMap.entries.countP fun e => e.1 < name) =
      (firsts Property.name registered).countP fun q => q.name < name := by
  rw [h.entries.countP_eq, List.countP_map]
  rfl

/-- **When the two listings of a class agree**: exactly if its types are in name order. -/
theorem listingsAgree_iff (typeId : TypeId) (initializer : TypeInfoInitializer)
    (registered : List (Property Name)) :
    ListingsAgree (registered.foldl TypeInfo.addProperty (.new typeId initializer)) ↔
      TypesInNameOrder registered := by
  have h := holdsFirsts_foldl typeId initializer registered
  generalize registered.foldl TypeInfo.addProperty (.new typeId initializer) = typeInfo at h
  have hlength : ((firsts Property.name registered).map Property.typeName).length =
      typeInfo.propertyMap.entries.length := by
    rw [h.entries.length_eq, List.length_map, List.length_map]
  have hlisted : typeInfo.getAllProperties.map Prod.snd = typeInfo.getAllPropertyTypeName ↔
      TypesInNameOrder registered := by
    rw [TypeInfo.getAllProperties, List.map_map, TypeInfo.getAllPropertyTypeName, h.typeNames,
      OrderedMap.map_eq_iff hlength]
    constructor
    · intro hplace p hp
      rw [← h.countP_entries]
      exact hplace (p.name, p) (h.entries.mem_iff.mpr (List.mem_map_of_mem hp))
    · intro horder e he
      obtain ⟨p, hp, rfl⟩ := List.mem_map.mp (h.entries.mem_iff.mp he)
      rw [h.countP_entries]
      exact horder p hp
  exact ⟨fun hagree => hlisted.mp hagree.listed,
    fun horder => listingsAgree_of_listed (hlisted.mpr horder)⟩

/-- A text `name` and then a number `id`: `GetAllProperties` has the number first. -/
theorem not_listingsAgree_name_id : ¬ ListingsAgree
    ([⟨"name", "FWString", 0⟩, ⟨"id", "int", 0⟩].foldl TypeInfo.addProperty
      (.new ⟨0, "class SP::rename"⟩ ⟨"rename", some 1⟩)) := by
  intro h
  have hlisted := h.listed
  revert hlisted
  decide

end Reflection

end DdingGameServer
