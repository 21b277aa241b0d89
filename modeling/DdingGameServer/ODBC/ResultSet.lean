import Mathlib.Data.List.TakeWhile
import DdingGameServer.Common.StdString
import DdingGameServer.ODBC.Model
/-!
# ODBC — reading a result set

`GetSPResult` fetches row by row, has the driver write the columns into the members of a local
object, and copies that object into the vector it returns. A member that is a number is written as
such. Of a member that is a string the driver gets the address of the characters: it writes them
behind the back of the string object, whose size stays 0, and the copy has no character of them.

The loop ends at the first fetch that is not `SQL_SUCCESS`, whichever of the other codes it is, and
returns what it has; and where a column cannot be read it returns with the cursor open.
-/

namespace DdingGameServer

namespace ODBC

/-! ## Columns and members -/

/-- The types of a numeric member. -/
inductive NumericType
  | bool | short | int | float | double | int64
  deriving DecidableEq, Repr

/-- Their size in bits. -/
def NumericType.width : NumericType → ℕ
  | .bool => 8
  | .short => 16
  | .int | .float => 32
  | .double | .int64 => 64

/-- The types of a registered member. -/
inductive FieldType
  | numeric (type : NumericType)
  | fString
  | fwString
  deriving DecidableEq, Repr

/-- The name a type is registered under. -/
def FieldType.typeName : FieldType → String
  | .numeric .bool => "bool"
  | .numeric .short => "short"
  | .numeric .int => "int"
  | .numeric .float => "float"
  | .numeric .double => "double"
  | .numeric .int64 => "__int64"
  | .fString => "FString"
  | .fwString => "FWString"

/-- The value of a column read as this type; a floating-point number is its bits. -/
abbrev FieldType.Value : FieldType → Type
  | .numeric type => BitVec type.width
  | .fString => List UInt8
  | .fwString => List UInt16

/-- A member of this type. -/
abbrev FieldType.Storage : FieldType → Type
  | .numeric type => BitVec type.width
  | .fString => StdString UInt8
  | .fwString => StdString UInt16

/-- A member of a result object. -/
structure Field where
  type : FieldType
  storage : type.Storage

/-- What is read from a member, or from a column. -/
structure Datum where
  type : FieldType
  value : type.Value

/-- `SQL_STRING_LENGTH`. -/
def sqlStringLength : ℕ := 128

/-- `columnSizeMap`. -/
def columnSizeMap : List (String × ℕ) :=
  [("bool", 1), ("short", 2), ("int", 4), ("float", 4), ("double", 8), ("long long", 8),
    ("__int64", 8), ("std::wstring", sqlStringLength), ("WCHAR[]", sqlStringLength),
    ("const WCHAR*", sqlStringLength), ("FWString", sqlStringLength), ("FString", sqlStringLength)]

/-- `GetBufferSize`. -/
def getBufferSize (typeString : String) : ℕ := (columnSizeMap.lookup typeString).getD 0

/-- A member as the constructor of the result object leaves it. -/
def Field.new : FieldType → Field
  | .numeric type => ⟨.numeric type, (0 : BitVec type.width)⟩
  | .fString => ⟨.fString, (StdString.ofList []).reserve sqlStringLength⟩
  | .fwString => ⟨.fwString, (StdString.ofList []).reserve sqlStringLength⟩

/-- The copy of a member when its object is copied. -/
def Field.copy : Field → Field
  | ⟨.numeric type, storage⟩ => ⟨.numeric type, storage⟩
  | ⟨.fString, storage⟩ => ⟨.fString, storage.copy⟩
  | ⟨.fwString, storage⟩ => ⟨.fwString, storage.copy⟩

/-- The member read directly, or through `GetOriginString`. -/
def Field.read : Field → Datum
  | ⟨.numeric type, storage⟩ => ⟨.numeric type, storage⟩
  | ⟨.fString, storage⟩ => ⟨.fString, storage.value⟩
  | ⟨.fwString, storage⟩ => ⟨.fwString, storage.value⟩

/-- The answer to `SQLGetData` on a column: its value, as any type it is asked for. -/
structure ColumnAnswer where
  ret : SqlReturn
  value : (type : FieldType) → type.Value

/-- What `SQLGetData` writes through the pointer of `GetPointerFromPointerTypeString`: of a text as
much as fits the size it is given, and a terminator. -/
def sqlGetData (field : Field) (answer : ColumnAnswer) : Field :=
  let bufferSize := getBufferSize field.type.typeName
  match field with
  | ⟨.numeric type, _⟩ => ⟨.numeric type, answer.value (.numeric type)⟩
  | ⟨.fString, storage⟩ =>
    ⟨.fString, storage.write ((answer.value .fString).take (bufferSize - 1) ++ [0])⟩
  | ⟨.fwString, storage⟩ =>
    ⟨.fwString, storage.write ((answer.value .fwString).take (bufferSize / 2 - 1) ++ [0])⟩

/-! ## The loop -/

/-- The answer to `SQLFetch`, and to the columns of the row it made current. -/
structure Fetch where
  ret : SqlReturn
  row : List ColumnAnswer

/-- What `GetSPResult` returns; the codes of its fetches, and whether it leaves the cursor open. -/
structure SPResult where
  resultList : Option (List (List Field))
  fetched : List SqlReturn
  cursorOpen : Bool

/-- The loop over `realPointerList`. A column the row does not have is an error. -/
def getColumns (row : List ColumnAnswer) : ℕ → List Field → Option (List Field)
  | _, [] => some []
  | columnIndex, field :: rest =>
    match row[columnIndex - 1]? with
    | none => none
    | some answer =>
      if answer.ret ≠ .success then none
      else (getColumns row (columnIndex + 1) rest).map (sqlGetData field answer :: ·)

/-- The loop over the rows. Behind its last fetch a result set has `SQL_NO_DATA`. -/
def fetchLoop (types : List FieldType) : List Fetch → List (List Field) → SPResult
  | [], resultList => ⟨some resultList, [.noData], false⟩
  | fetch :: rest, resultList =>
    if fetch.ret ≠ .success then ⟨some resultList, [fetch.ret], false⟩
    else
      match getColumns fetch.row 1 (types.map Field.new) with
      | none => ⟨none, [fetch.ret], true⟩
      | some queryResult =>
        let result := fetchLoop types rest (resultList ++ [queryResult.map Field.copy])
        { result with fetched := fetch.ret :: result.fetched }

/-- `GetSPResult`, of a result type with members of these types. -/
def getSPResult (types : List FieldType) (fetches : List Fetch) : SPResult :=
  fetchLoop types fetches []

/-! ## What is expected -/

/-- A row as the database has it, read as these types. -/
def Fetch.values (types : List FieldType) (fetch : Fetch) : List Datum :=
  (types.zip fetch.row).map fun column => ⟨column.1, column.2.value column.1⟩

/-- **The rows are returned as they are**, in order. -/
def ReturnsRows (types : List FieldType) (fetches : List Fetch) : Prop :=
  (getSPResult types fetches).resultList.map (List.map (List.map Field.read)) =
    some (fetches.map (Fetch.values types))

/-- **A result is complete**: what is returned is the result set to its end, every row of it that
was delivered, and the cursor is closed. -/
structure Complete (result : SPResult) : Prop where
  ended : ∀ resultList, result.resultList = some resultList →
    result.fetched.getLast? = some .noData
  whole : ∀ resultList, result.resultList = some resultList →
    resultList.length = (result.fetched.filter sqlIsSuccess).length
  closed : result.cursorOpen = false

/-! ## One row -/

variable {types : List FieldType} {fetches : List Fetch} {row : List ColumnAnswer} {n : ℕ}
  {fields : List Field} {resultList : List (List Field)} {field : Field} {answer : ColumnAnswer}

/-- The first `n` columns can be read. -/
def Gets (n : ℕ) (row : List ColumnAnswer) : Prop :=
  n ≤ row.length ∧ ∀ answer ∈ row.take n, answer.ret = .success

theorem gets_cons : Gets (n + 1) (answer :: row) ↔ answer.ret = .success ∧ Gets n row := by
  simp only [Gets, List.length_cons, Nat.add_le_add_iff_right, List.take_succ_cons,
    List.forall_mem_cons]
  exact ⟨fun h => ⟨h.2.1, h.1, h.2.2⟩, fun h => ⟨h.2.1, h.1, h.2.2⟩⟩

/-- **What is read of a row** whose columns can be read, from the column `n + 1` on; of another one
nothing. -/
theorem getColumns_eq (row : List ColumnAnswer) (n : ℕ) (fields : List Field) :
    (Gets fields.length (row.drop n) →
      getColumns row (n + 1) fields = some (List.zipWith sqlGetData fields (row.drop n))) ∧
    (¬ Gets fields.length (row.drop n) → getColumns row (n + 1) fields = none) := by
  induction fields generalizing n with
  | nil => exact ⟨fun _ => by simp [getColumns], fun h => absurd ⟨Nat.zero_le _, by simp⟩ h⟩
  | cons field fields ih =>
    rw [getColumns, Nat.add_sub_cancel]
    cases hanswer : row[n]? with
    | none =>
      have hdrop : row.drop n = [] := List.drop_eq_nil_of_le (List.getElem?_eq_none_iff.mp hanswer)
      refine ⟨fun h => ?_, fun _ => rfl⟩
      rw [hdrop] at h
      exact absurd h.1 (by simp)
    | some answer =>
      obtain ⟨hn, rfl⟩ := List.getElem?_eq_some_iff.mp hanswer
      rw [List.drop_eq_getElem_cons hn, List.length_cons, gets_cons]
      dsimp only
      obtain ⟨hgets, hnot⟩ := ih (n + 1)
      by_cases hret : row[n].ret = .success
      · rw [if_neg (by simp [hret]), and_iff_right hret]
        refine ⟨fun h => ?_, fun h => ?_⟩
        · rw [hgets h]
          rfl
        · rw [hnot h]
          rfl
      · rw [if_pos hret]
        exact ⟨fun h => absurd h.1 hret, fun _ => rfl⟩

/-- The element a row becomes. -/
def element (types : List FieldType) (fetch : Fetch) : List Field :=
  (List.zipWith sqlGetData (types.map Field.new) fetch.row).map Field.copy

/-! ## The whole result set -/

/-- The fetches before the first one that is not `SQL_SUCCESS`. -/
def rowsBefore (fetches : List Fetch) : List Fetch :=
  fetches.takeWhile fun fetch => fetch.ret = .success

/-- The code of that one. -/
def ending (fetches : List Fetch) : SqlReturn :=
  ((fetches.dropWhile fun fetch => fetch.ret = .success).head?.map Fetch.ret).getD .noData

/-- **Where all columns can be read**, the loop returns the rows before the ending, whatever that
is. -/
theorem fetchLoop_of_gets (h : ∀ fetch ∈ rowsBefore fetches, Gets types.length fetch.row) :
    fetchLoop types fetches resultList =
      ⟨some (resultList ++ (rowsBefore fetches).map (element types)),
        (rowsBefore fetches).map Fetch.ret ++ [ending fetches], false⟩ := by
  induction fetches generalizing resultList with
  | nil => simp [fetchLoop, rowsBefore, ending]
  | cons fetch fetches ih =>
    by_cases hret : fetch.ret = .success
    · have hrows : rowsBefore (fetch :: fetches) = fetch :: rowsBefore fetches := by
        simp [rowsBefore, hret]
      have hending : ending (fetch :: fetches) = ending fetches := by simp [ending, hret]
      rw [hrows] at h
      have hgets := (getColumns_eq fetch.row 0 (types.map Field.new)).1
        (by rw [List.length_map]; exact h fetch List.mem_cons_self)
      rw [Nat.zero_add, List.drop_zero] at hgets
      rw [fetchLoop, if_neg (by simp [hret]), hgets]
      dsimp only
      rw [ih (fun later hlater => h later (List.mem_cons_of_mem _ hlater)), hrows, hending]
      simp [element]
    · have hrows : rowsBefore (fetch :: fetches) = [] := by simp [rowsBefore, hret]
      have hending : ending (fetch :: fetches) = fetch.ret := by simp [ending, hret]
      rw [fetchLoop, if_pos hret, hrows, hending]
      simp

/-- **Where one cannot**, it returns nothing and leaves the cursor open. -/
theorem fetchLoop_of_not_gets (h : ∃ fetch ∈ rowsBefore fetches, ¬ Gets types.length fetch.row)
    (resultList : List (List Field)) :
    (fetchLoop types fetches resultList).resultList = none ∧
      (fetchLoop types fetches resultList).cursorOpen = true := by
  induction fetches generalizing resultList with
  | nil =>
    obtain ⟨fetch, hfetch, -⟩ := h
    cases hfetch
  | cons fetch fetches ih =>
    obtain ⟨bad, hbad, hnot⟩ := h
    have hret : fetch.ret = .success := by
      by_contra hret
      simp [rowsBefore, hret] at hbad
    have hrows : rowsBefore (fetch :: fetches) = fetch :: rowsBefore fetches := by
      simp [rowsBefore, hret]
    rw [hrows] at hbad
    rw [fetchLoop, if_neg (by simp [hret])]
    obtain ⟨hgets, hnone⟩ := getColumns_eq fetch.row 0 (types.map Field.new)
    rw [Nat.zero_add, List.drop_zero, List.length_map] at hgets hnone
    by_cases hfirst : Gets types.length fetch.row
    · rw [hgets hfirst]
      refine ih ⟨bad, (List.mem_cons.mp hbad).resolve_left ?_, hnot⟩ _
      rintro rfl
      exact hnot hfirst
    · rw [hnone hfirst]
      exact ⟨rfl, rfl⟩

/-! ## When a result is complete -/

/-- **A result is complete** exactly if the fetches before the first one that is not `SQL_SUCCESS`
have all their columns read, and that one is `SQL_NO_DATA`. -/
theorem complete_iff (types : List FieldType) (fetches : List Fetch) :
    Complete (getSPResult types fetches) ↔
      (∀ fetch ∈ rowsBefore fetches, Gets types.length fetch.row) ∧ ending fetches = .noData := by
  by_cases hall : ∀ fetch ∈ rowsBefore fetches, Gets types.length fetch.row
  · rw [getSPResult, fetchLoop_of_gets hall, and_iff_right hall]
    constructor
    · intro h
      have hended := h.ended _ rfl
      rw [List.getLast?_append_of_ne_nil _ (by simp)] at hended
      simpa using hended
    · intro hnoData
      refine ⟨fun _ _ => by simp [hnoData], fun resultList hlist => ?_, rfl⟩
      have hsuccess : ∀ ret ∈ (rowsBefore fetches).map Fetch.ret, sqlIsSuccess ret = true := by
        intro ret hret
        obtain ⟨fetch, hfetch, rfl⟩ := List.mem_map.mp hret
        have := List.mem_takeWhile_imp hfetch
        rw [of_decide_eq_true this]
        rfl
      obtain rfl := Option.some.inj hlist
      rw [List.filter_append, List.filter_eq_self.mpr hsuccess, hnoData]
      simp [sqlIsSuccess]
  · refine iff_of_false (fun h => ?_) fun h => hall h.1
    push Not at hall
    have hopen := (fetchLoop_of_not_gets hall []).2
    rw [show fetchLoop types fetches [] = getSPResult types fetches from rfl, h.closed] at hopen
    cases hopen

/-- One row of a column, with these return codes. -/
def oneRow (fetched got : SqlReturn) : Fetch where
  ret := fetched
  row := [⟨got, fun
    | .numeric type => BitVec.ofNat type.width 7
    | .fString => [97]
    | .fwString => [97]⟩]

/-- Two rows, and the end of the result set. -/
theorem complete_twoRows :
    Complete (getSPResult [.numeric .int] [oneRow .success .success, oneRow .success .success]) := by
  refine (complete_iff _ _).mpr ⟨fun fetch hfetch => ?_, rfl⟩
  have hrows : rowsBefore [oneRow .success .success, oneRow .success .success] =
      [oneRow .success .success, oneRow .success .success] := rfl
  rw [hrows] at hfetch
  obtain rfl : fetch = oneRow .success .success := by simpa using hfetch
  exact ⟨by simp [oneRow], by simp [oneRow]⟩

/-- **A fetch that fails after one row**: the row is returned as if it were all. And where a column
cannot be read, the cursor stays open. -/
theorem not_complete_oneRow :
    (getSPResult [.numeric .int]
        [oneRow .success .success, oneRow .error .success]).resultList.isSome = true ∧
      (getSPResult [.numeric .int]
        [oneRow .success .success, oneRow .error .success]).fetched = [.success, .error] ∧
      ¬ Complete (getSPResult [.numeric .int]
        [oneRow .success .success, oneRow .error .success]) ∧
      ¬ Complete (getSPResult [.numeric .int] [oneRow .success .error]) := by
  refine ⟨rfl, rfl, fun h => ?_, fun h => ?_⟩
  · exact absurd (h.ended _ rfl) (by decide)
  · exact absurd h.closed (by decide)

/-! ## When the rows are returned as they are -/

/-- The bytes a column takes, its terminator included. -/
def ColumnAnswer.size (answer : ColumnAnswer) : FieldType → ℕ
  | .numeric type => type.width / 8
  | .fString => (answer.value .fString).length + 1
  | .fwString => 2 * ((answer.value .fwString).length + 1)

/-- **A result set that is delivered**: every row is fetched with `SQL_SUCCESS`, and every column is
read and fits. -/
structure Delivered (types : List FieldType) (fetches : List Fetch) : Prop where
  fetched : ∀ fetch ∈ fetches, fetch.ret = .success
  read : ∀ fetch ∈ fetches, Gets types.length fetch.row
  fits : ∀ fetch ∈ fetches, ∀ column ∈ types.zip fetch.row,
    column.2.size column.1 ≤ getBufferSize column.1.typeName

/-- The column is a number, or a text without a character. -/
def ColumnAnswer.NoText (answer : ColumnAnswer) : FieldType → Prop
  | .numeric _ => True
  | .fString => answer.value .fString = []
  | .fwString => answer.value .fwString = []

/-- **The text arrives in the object the driver writes to**: there `GetCString` finds it. -/
theorem cString_sqlGetData (storage : StdString UInt16) (answer : ColumnAnswer)
    (hfits : answer.size .fwString ≤ getBufferSize FieldType.fwString.typeName)
    (htext : ∀ c ∈ answer.value .fwString, c ≠ 0) :
    ∃ written : StdString UInt16, sqlGetData ⟨.fwString, storage⟩ answer = ⟨.fwString, written⟩ ∧
      written.cString = answer.value .fwString := by
  refine ⟨_, rfl, ?_⟩
  have hlen : (answer.value .fwString).length ≤
      getBufferSize FieldType.fwString.typeName / 2 - 1 := by
    rw [ColumnAnswer.size] at hfits
    omega
  rw [List.take_of_length_le hlen]
  exact StdString.cString_write htext

/-- **And the copy of that object does not have it.** -/
theorem read_copy_sqlGetData_iff (type : FieldType) (answer : ColumnAnswer) :
    (sqlGetData (Field.new type) answer).copy.read = ⟨type, answer.value type⟩ ↔
      answer.NoText type := by
  have hempty {C : Type} [OfNat C 0] (text : List C) :
      (((StdString.ofList []).reserve sqlStringLength).write text).copy.value = [] :=
    StdString.value_copy_write rfl
  cases type with
  | numeric type => exact iff_of_true rfl trivial
  | fString =>
    simp only [Field.new, sqlGetData, Field.copy, Field.read, hempty, Datum.mk.injEq, heq_eq_eq,
      true_and]
    exact eq_comm
  | fwString =>
    simp only [Field.new, sqlGetData, Field.copy, Field.read, hempty, Datum.mk.injEq, heq_eq_eq,
      true_and]
    exact eq_comm

/-- The element of a row is the row exactly if no column of it is a text with characters. -/
theorem read_element_iff (types : List FieldType) (fetch : Fetch) :
    (element types fetch).map Field.read = fetch.values types ↔
      ∀ column ∈ types.zip fetch.row, column.2.NoText column.1 := by
  rw [element, Fetch.values, List.zipWith_map_left, ← List.map_uncurry_zip_eq_zipWith,
    List.map_map, List.map_map, List.map_inj_left]
  refine forall₂_congr fun column _ => ?_
  exact read_copy_sqlGetData_iff column.1 column.2

/-- **The rows are returned as they are** exactly if all texts among them are empty. -/
theorem returnsRows_iff (types : List FieldType) (fetches : List Fetch)
    (h : Delivered types fetches) :
    ReturnsRows types fetches ↔
      ∀ fetch ∈ fetches, ∀ column ∈ types.zip fetch.row, column.2.NoText column.1 := by
  have hrows : rowsBefore fetches = fetches :=
    List.takeWhile_eq_self_iff.mpr fun fetch hfetch => decide_eq_true (h.fetched fetch hfetch)
  rw [ReturnsRows, getSPResult, fetchLoop_of_gets (by rw [hrows]; exact h.read), hrows]
  simp only [List.nil_append, Option.map_some, Option.some.injEq, List.map_map, List.map_inj_left,
    Function.comp_apply, read_element_iff]

/-- A row of a number. -/
theorem returnsRows_number : ReturnsRows [.numeric .int] [oneRow .success .success] := by
  refine (returnsRows_iff _ _ ⟨?_, ?_, ?_⟩).mpr ?_
  · simp [oneRow]
  · simp [oneRow, Gets]
  · simp only [List.forall_mem_singleton, oneRow, List.zip_cons_cons, List.zip_nil_right]
    decide
  · simp [oneRow, ColumnAnswer.NoText]

/-- **A row of a text**: the vector has one element, whose string is empty. -/
theorem not_returnsRows_text :
    Delivered [.fwString] [oneRow .success .success] ∧
      ¬ ReturnsRows [.fwString] [oneRow .success .success] := by
  have hdelivered : Delivered [.fwString] [oneRow .success .success] := by
    refine ⟨?_, ?_, ?_⟩
    · simp [oneRow]
    · simp [oneRow, Gets]
    · simp only [List.forall_mem_singleton, oneRow, List.zip_cons_cons, List.zip_nil_right]
      decide
  refine ⟨hdelivered, fun h => ?_⟩
  have hrow : (element [.fwString] (oneRow .success .success)).map Field.read =
      (oneRow .success .success).values [.fwString] := (List.cons.inj (Option.some.inj h)).1
  have hempty := (read_element_iff _ _).mp hrow _ List.mem_cons_self
  cases hempty

end ODBC

end DdingGameServer
