import DdingGameServer.ODBC.Model
/-!
# ODBC — the arguments of a call

`SettingSPMaker` binds the arguments of a call one by one. Its only check compares the number of
columns with the index it is about to read, and lets the index right behind the last column through;
and nothing compares the two numbers at the end. So with one argument too many the list of columns
is read behind its end, and with too few the call is made all the same. (`SQLBindParameter` takes
the position as 16 bits.)
-/

namespace DdingGameServer

namespace ODBC

/-- The types `ODBCTypeTraitor` is specialised for. -/
inductive CppType
  | bool | short | int | float | double | longLong
  | wstring | wcharArray | wcharPointer | fwString | fString
  | other
  deriving DecidableEq, Repr

/-- `ODBCTypeTraitor::GetCType`, with the codes of ODBC. -/
def CppType.getCType : CppType → Int16
  | .bool => -7
  | .short => -15
  | .int => -16
  | .float => 7
  | .double => 8
  | .longLong => -25
  | .wstring | .wcharArray | .wcharPointer | .fwString => -8
  | .fString => 1
  | .other => 0

/-- `ODBCTypeTraitor::GetSQLType`; `SQL_IS_SMALLINT` is `-8`. -/
def CppType.getSQLType : CppType → Int16
  | .bool => -7
  | .short => -8
  | .int => 4
  | .float => 7
  | .double => 8
  | .longLong => -5
  | .wstring | .wcharArray | .wcharPointer | .fwString => -9
  | .fString => 12
  | .other => 0

/-- An argument: its type, and the address `GetPointerFromT` gives. -/
structure Argument where
  type : CppType
  pointer : ℕ
  deriving DecidableEq, Repr

/-- A call of `SQLBindParameter`. -/
structure Binding where
  parameterNumber : UInt16
  valueType : Int16
  parameterType : Int16
  parameterValuePtr : ℕ
  deriving DecidableEq, Repr

/-- The argument bound at a location, which becomes an `SQLUSMALLINT`. -/
def Argument.bindAt (input : Argument) (parameterLocation : ℕ) : Binding where
  parameterNumber := UInt16.ofNat parameterLocation
  valueType := input.type.getCType
  parameterType := input.type.getSQLType
  parameterValuePtr := input.pointer

/-- What `SettingSPMaker` returns; which elements of `inputColumnInfoList` it has read, and what is
bound. -/
structure SPMaker where
  returned : Bool
  reads : List ℕ
  bound : List Binding
  deriving DecidableEq, Repr

/-- `SettingSPMaker` of one argument. The data type and the column type of the column at `index` are
read, and `ODBCUtil::SettingSPMaker` looks at neither. -/
def settingSPMakerOne (sqlBindParameter : Binding → SqlReturn) (info : ProcedureInfo)
    (parameterLocation : ℕ) (input : Argument) : SPMaker :=
  let index := parameterLocation - 1
  if info.inputColumnInfoList.length < index then ⟨false, [], []⟩
  else
    let binding := input.bindAt parameterLocation
    if sqlIsSuccess (sqlBindParameter binding) = false then ⟨false, [index, index], []⟩
    else ⟨true, [index, index], [binding]⟩

/-- `SettingSPMaker` of an argument and the ones behind it. -/
def settingSPMaker (sqlBindParameter : Binding → SqlReturn) (info : ProcedureInfo) :
    ℕ → Argument → List Argument → SPMaker
  | parameterLocation, input, [] =>
    settingSPMakerOne sqlBindParameter info parameterLocation input
  | parameterLocation, input, next :: args =>
    let first := settingSPMakerOne sqlBindParameter info parameterLocation input
    if first.returned = false then first
    else
      let rest := settingSPMaker sqlBindParameter info (parameterLocation + 1) next args
      ⟨rest.returned, first.reads ++ rest.reads, first.bound ++ rest.bound⟩

/-- `SP_PARAMETER_LOCATION`. -/
def spParameterLocation : ℕ := 1

/-- `CallSPDirect`: what it returns, and the text given to `SQLExecDirect`. -/
def callSPDirect (sqlBindParameter : Binding → SqlReturn) (sqlExecDirect : WString → SqlReturn)
    (procedureInfo : Option ProcedureInfo) (input : Argument) (args : List Argument) :
    Bool × Option WString :=
  match procedureInfo with
  | none => (false, none)
  | some info =>
    if (settingSPMaker sqlBindParameter info spParameterLocation input args).returned = false then
      (false, none)
    else (sqlIsSuccess (sqlExecDirect info.sql), some info.sql)

/-! ## What is expected -/

/-- Argument `i` is bound at position `i`, counted from 1. -/
structure BoundInOrder (args : List Argument) (bound : List Binding) : Prop where
  positions : bound.map (fun b => b.parameterNumber.toNat) = List.range' 1 args.length
  arguments : bound.map (fun b => (b.valueType, b.parameterType, b.parameterValuePtr)) =
    args.map fun a => (a.type.getCType, a.type.getSQLType, a.pointer)

/-- **The arguments match the parameters**, as `SettingSPMaker` sees it: whatever the driver
answers, only columns that exist are read; and if it always succeeds, the call goes on exactly with
as many arguments as columns, each bound at its position. -/
structure MatchesParameters (info : ProcedureInfo) (input : Argument) (args : List Argument) :
    Prop where
  reads : ∀ sqlBindParameter, ∀ index ∈
    (settingSPMaker sqlBindParameter info spParameterLocation input args).reads,
      index < info.inputColumnInfoList.length
  returns : ∀ sqlBindParameter, (∀ b, sqlIsSuccess (sqlBindParameter b) = true) →
    ((settingSPMaker sqlBindParameter info spParameterLocation input args).returned = true ↔
      (input :: args).length = info.inputColumnInfoList.length)
  binds : ∀ sqlBindParameter, (∀ b, sqlIsSuccess (sqlBindParameter b) = true) →
    (settingSPMaker sqlBindParameter info spParameterLocation input args).returned = true →
      BoundInOrder (input :: args)
        (settingSPMaker sqlBindParameter info spParameterLocation input args).bound

/-! ## The recursion -/

variable {sqlBindParameter : Binding → SqlReturn} {info : ProcedureInfo} {location index : ℕ}
  {input : Argument} {args : List Argument}

/-- An element that is read is one of the arguments' indexes, whatever the driver answers. -/
theorem lt_of_mem_reads (hpos : 1 ≤ location)
    (h : index ∈ (settingSPMaker sqlBindParameter info location input args).reads) :
    index < location + args.length := by
  have hone (location : ℕ) (input : Argument) (hpos : 1 ≤ location)
      (h : index ∈ (settingSPMakerOne sqlBindParameter info location input).reads) :
      index < location := by
    unfold settingSPMakerOne at h
    dsimp only at h
    split at h
    · cases h
    · have : index = location - 1 := by split at h <;> simpa using h
      omega
  induction args generalizing location input with
  | nil => exact Nat.lt_of_lt_of_le (hone location input hpos h) (Nat.le_add_right _ _)
  | cons next args ih =>
    rw [settingSPMaker] at h
    dsimp only at h
    split at h
    · exact Nat.lt_of_lt_of_le (hone location input hpos h) (Nat.le_add_right _ _)
    · rcases List.mem_append.mp h with h | h
      · exact Nat.lt_of_lt_of_le (hone location input hpos h) (Nat.le_add_right _ _)
      · have hlt := ih (Nat.le_add_left 1 location) h
        rw [List.length_cons]
        omega

section Succeeds

variable (hsucceeds : ∀ b, sqlIsSuccess (sqlBindParameter b) = true)

include hsucceeds

/-- One argument, where the driver succeeds. -/
theorem settingSPMakerOne_eq : settingSPMakerOne sqlBindParameter info location input =
    if info.inputColumnInfoList.length < location - 1 then ⟨false, [], []⟩
    else ⟨true, [location - 1, location - 1], [input.bindAt location]⟩ := by
  simp only [settingSPMakerOne, hsucceeds, Bool.true_eq_false, if_false]

/-- **The check is passed** exactly while the index is at most the number of columns. -/
theorem returned_iff (hpos : 1 ≤ location) :
    (settingSPMaker sqlBindParameter info location input args).returned = true ↔
      location - 1 + args.length ≤ info.inputColumnInfoList.length := by
  induction args generalizing location input with
  | nil =>
    rw [settingSPMaker, settingSPMakerOne_eq hsucceeds, List.length_nil]
    by_cases hlt : info.inputColumnInfoList.length < location - 1
    · simp only [hlt, if_true, Bool.false_eq_true, false_iff]
      omega
    · simp only [hlt, if_false, true_iff]
      omega
  | cons next args ih =>
    rw [settingSPMaker, settingSPMakerOne_eq hsucceeds]
    by_cases hlt : info.inputColumnInfoList.length < location - 1
    · simp only [hlt, if_true, Bool.false_eq_true, false_iff]
      omega
    · simp only [hlt, if_false, Bool.true_eq_false]
      rw [ih (Nat.le_add_left 1 location), List.length_cons]
      omega

/-- **Every index up to the number of columns is read**, the one behind the last column too. -/
theorem mem_reads (hpos : 1 ≤ location) (hge : location - 1 ≤ index)
    (hlt : index < location + args.length) (hle : index ≤ info.inputColumnInfoList.length) :
    index ∈ (settingSPMaker sqlBindParameter info location input args).reads := by
  have hcheck : ¬ info.inputColumnInfoList.length < location - 1 := by omega
  induction args generalizing location input with
  | nil =>
    rw [settingSPMaker, settingSPMakerOne_eq hsucceeds, if_neg hcheck]
    have : index = location - 1 := by
      rw [List.length_nil] at hlt
      omega
    simp [this]
  | cons next args ih =>
    rw [settingSPMaker, settingSPMakerOne_eq hsucceeds, if_neg hcheck]
    simp only [Bool.true_eq_false, if_false, List.mem_append]
    rcases Nat.eq_or_lt_of_le hge with heq | hgt
    · exact .inl (by simp [heq])
    · rw [List.length_cons] at hlt
      exact .inr (ih (Nat.le_add_left 1 location) (by omega) (by omega) (by omega))

/-- **What is bound** if the call goes on. -/
theorem bound_eq (hpos : 1 ≤ location)
    (h : location - 1 + args.length ≤ info.inputColumnInfoList.length) :
    (settingSPMaker sqlBindParameter info location input args).bound =
      ((input :: args).zipIdx location).map fun a => a.1.bindAt a.2 := by
  have hcheck : ¬ info.inputColumnInfoList.length < location - 1 := by omega
  induction args generalizing location input with
  | nil =>
    rw [settingSPMaker, settingSPMakerOne_eq hsucceeds, if_neg hcheck]
    rfl
  | cons next args ih =>
    rw [List.length_cons] at h
    rw [settingSPMaker, settingSPMakerOne_eq hsucceeds, if_neg hcheck]
    simp only [Bool.true_eq_false, if_false]
    rw [ih (Nat.le_add_left 1 location) (by omega) (by omega)]
    rfl

end Succeeds

/-! ## Positions -/

/-- **Positions survive the narrowing to 16 bits** exactly up to 65535 arguments. -/
theorem positions_eq_iff (args : List Argument) :
    (((args.zipIdx 1).map fun a => a.1.bindAt a.2).map fun b => b.parameterNumber.toNat) =
      List.range' 1 args.length ↔ args.length < 65536 := by
  have hmap : (((args.zipIdx 1).map fun a => a.1.bindAt a.2).map fun b => b.parameterNumber.toNat) =
      (List.range' 1 args.length).map (· % 65536) := by
    rw [← List.zipIdx_map_snd 1 args, List.map_map, List.map_map]
    exact List.map_congr_left fun a _ => UInt16.toNat_ofNat'
  rw [hmap]
  constructor
  · intro h
    by_contra hlong
    -- the argument 65536 is bound at 0
    have hlast := congrArg (·[65535]?) h
    simp only [List.getElem?_map, List.getElem?_range' (show 65535 < args.length by omega)] at hlast
    simp at hlast
  · intro hlt
    conv_rhs => rw [← List.map_id (List.range' 1 args.length)]
    refine List.map_congr_left fun i hi => Nat.mod_eq_of_lt ?_
    obtain ⟨-, hi⟩ := List.mem_range'_1.mp hi
    omega

theorem arguments_eq (args : List Argument) (n : ℕ) :
    (((args.zipIdx n).map fun a => a.1.bindAt a.2).map
      fun b => (b.valueType, b.parameterType, b.parameterValuePtr)) =
        args.map fun a => (a.type.getCType, a.type.getSQLType, a.pointer) := by
  conv_rhs => rw [← List.zipIdx_map_fst n args]
  rw [List.map_map, List.map_map]
  rfl

/-! ## When the arguments match -/

/-- **The arguments match exactly if there are as many as columns** (and positions for them). -/
theorem matchesParameters_iff (info : ProcedureInfo) (input : Argument) (args : List Argument) :
    MatchesParameters info input args ↔
      (input :: args).length = info.inputColumnInfoList.length ∧ (input :: args).length < 65536 := by
  have hsuccess (b : Binding) : sqlIsSuccess ((fun _ : Binding => SqlReturn.success) b) = true := rfl
  have hlen : (input :: args).length = args.length + 1 := rfl
  constructor
  · intro h
    have hle : (input :: args).length ≤ info.inputColumnInfoList.length := by
      by_contra hlong
      have hmem : info.inputColumnInfoList.length ∈
          (settingSPMaker (fun _ => .success) info 1 input args).reads :=
        mem_reads hsuccess (Nat.le_refl 1) (by omega) (by omega) (Nat.le_refl _)
      exact Nat.lt_irrefl _ (h.reads _ _ hmem)
    have hreturned : (settingSPMaker (fun _ => .success) info 1 input args).returned = true :=
      (returned_iff hsuccess (Nat.le_refl 1)).mpr (by omega)
    refine ⟨(h.returns _ hsuccess).mp hreturned, ?_⟩
    have hbound := (h.binds _ hsuccess hreturned).positions
    rwa [spParameterLocation, bound_eq hsuccess (Nat.le_refl 1) (by omega), positions_eq_iff] at hbound
  · rintro ⟨hcount, hlt⟩
    refine ⟨fun sqlBindParameter index hindex => ?_, fun sqlBindParameter hsucceeds => ?_,
      fun sqlBindParameter hsucceeds _ => ?_⟩
    · have := lt_of_mem_reads (Nat.le_refl 1) hindex
      omega
    · rw [spParameterLocation, returned_iff hsucceeds (Nat.le_refl 1)]
      exact iff_of_true (by omega) hcount
    · rw [spParameterLocation, bound_eq hsucceeds (Nat.le_refl 1) (by omega)]
      exact ⟨(positions_eq_iff _).mpr hlt, arguments_eq _ _⟩

/-- A column of type `int`. -/
def intColumn : ColumnInfo := ⟨wide "@id", sqlParamInput, 4, wide "int", 4⟩

/-- A procedure of two such columns. -/
def twoColumns : ProcedureInfo where
  inputColumnInfoList := [intColumn, intColumn]
  sql := wide "\x7bCALL p(?, ?)\x7d"

/-- Two arguments for two columns. -/
theorem matchesParameters_two : MatchesParameters twoColumns ⟨.int, 100⟩ [⟨.int, 104⟩] :=
  (matchesParameters_iff twoColumns ⟨.int, 100⟩ [⟨.int, 104⟩]).mpr (by decide)

/-- **One argument for two columns** passes, and with three the third column of two is read. -/
theorem not_matchesParameters_one :
    (settingSPMaker (fun _ => .success) twoColumns 1 ⟨.int, 100⟩ []).returned = true ∧
      2 ∈ (settingSPMaker (fun _ => .success) twoColumns 1 ⟨.int, 100⟩
        [⟨.int, 104⟩, ⟨.int, 108⟩]).reads ∧
      ¬ MatchesParameters twoColumns ⟨.int, 100⟩ [] ∧
      ¬ MatchesParameters twoColumns ⟨.int, 100⟩ [⟨.int, 104⟩, ⟨.int, 108⟩] := by
  refine ⟨by decide, by decide, fun h => ?_, fun h => ?_⟩
  · exact absurd ((h.returns (fun _ => .success) fun _ => rfl).mp (by decide)) (by decide)
  · exact absurd (h.reads (fun _ => .success) 2 (by decide)) (by decide)

/-! ## The call -/

/-- **A call is made although arguments are missing**, wherever the driver accepts those that are
there; with two or more too many it is not. -/
theorem callSPDirect_snd (hsucceeds : ∀ b, sqlIsSuccess (sqlBindParameter b) = true)
    (sqlExecDirect : WString → SqlReturn) :
    (callSPDirect sqlBindParameter sqlExecDirect (some info) input args).2 =
      if args.length ≤ info.inputColumnInfoList.length then some info.sql else none := by
  have hreturned : (settingSPMaker sqlBindParameter info 1 input args).returned = true ↔
      1 - 1 + args.length ≤ info.inputColumnInfoList.length :=
    returned_iff hsucceeds (Nat.le_refl 1)
  rw [Nat.sub_self, Nat.zero_add] at hreturned
  unfold callSPDirect spParameterLocation
  by_cases hle : args.length ≤ info.inputColumnInfoList.length
  · simp [hreturned.mpr hle, hle]
  · have hfalse := Bool.eq_false_iff.mpr (mt hreturned.mp hle)
    simp [hfalse, hle]

end ODBC

end DdingGameServer
