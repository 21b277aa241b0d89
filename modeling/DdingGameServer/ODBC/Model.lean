import Mathlib.Data.List.Basic
/-!
# ODBC — procedures and their columns

At its start DBServer asks the database for its stored procedures, and for each of them for its
parameters: `MakeInputColumnToProcedureInfo` binds the columns of `SQLProcedureColumns`, fetches row
by row and puts together the text of the call, `MakeOutputColumnToProcedureInfo` describes the
result set.

The driver is what it answers: a return code for each call, and for each fetch what it has put into
the bound columns. Wide strings are lists of their 16-bit units; a buffer is read up to its
terminator.
-/

namespace DdingGameServer

namespace ODBC

/-- A return code. -/
inductive SqlReturn
  | success
  | successWithInfo
  | noData
  | error
  | invalidHandle
  deriving DecidableEq, Repr

/-- `SQLIsSuccess`. -/
def sqlIsSuccess : SqlReturn → Bool
  | .success | .successWithInfo => true
  | _ => false

/-- A `std::wstring`. -/
abbrev WString := List UInt16

/-- A text of the source as a wide string. -/
def wide (text : String) : WString := text.toList.map fun c => UInt16.ofNat c.toNat

/-- The string a `WCHAR` buffer holds. -/
def cString (buffer : List UInt16) : WString := buffer.takeWhile (· ≠ 0)

abbrev ProcedureName := String

/-- `SQL_PARAM_INPUT`. -/
def sqlParamInput : Int16 := 1

/-- A `ColumnInfo`. -/
structure ColumnInfo where
  name : WString
  columnType : Int16
  dataType : Int32
  dataTypeName : WString
  columnSize : UInt64
  deriving DecidableEq, Repr

/-- A `ProcedureInfo`. -/
structure ProcedureInfo where
  inputColumnInfoList : List ColumnInfo := []
  resultColumnInfoList : List ColumnInfo := []
  sql : WString := []
  deriving DecidableEq, Repr

/-! ## Input columns -/

/-- The columns of `SQLProcedureColumns` that are bound. -/
inductive ColumnNumber
  | columnName
  | columnType
  | dataType
  | dataTypeName
  | columnSize
  deriving DecidableEq, Repr

/-- An `InputColumnInfo`, as a successful fetch leaves it; a text that does not fit its 64 units was
cut by the driver. -/
structure InputColumnInfo where
  name : List UInt16
  columnType : Int16
  dataType : Int32
  dataTypeName : List UInt16
  columnSize : UInt64
  deriving DecidableEq, Repr

/-- The constructor of `ColumnInfo` from the bound columns. -/
def InputColumnInfo.columnInfo (columnInfo : InputColumnInfo) : ColumnInfo where
  name := cString columnInfo.name
  columnType := columnInfo.columnType
  dataType := columnInfo.dataType
  dataTypeName := cString columnInfo.dataTypeName
  columnSize := columnInfo.columnSize

/-- What the driver answers to `MakeInputColumnToProcedureInfo`. Behind its last fetch a result set
has `SQL_NO_DATA`. -/
structure InputAnswers where
  sqlProcedureColumns : SqlReturn
  sqlBindCol : ColumnNumber → SqlReturn
  sqlFetch : List (SqlReturn × InputColumnInfo)

/-- `BindColumn`. -/
def bindColumn (sqlBindCol : ColumnNumber → SqlReturn) : Bool :=
  [ColumnNumber.columnName, .columnType, .dataType, .dataTypeName, .columnSize].all
    fun column => sqlBindCol column = .success

/-- The loop over the rows: the call's text so far, whether no parameter was seen, and the
columns. -/
def inputColumnLoop : List (SqlReturn × InputColumnInfo) → WString × Bool × List ColumnInfo →
    WString × Bool × List ColumnInfo
  | [], s => s
  | (ret, columnInfo) :: rest, (sql, isFirstParam, inputColumnInfoList) =>
    if sqlIsSuccess ret = false then (sql, isFirstParam, inputColumnInfoList)
    else if columnInfo.columnType = sqlParamInput then
      let sql := if isFirstParam then sql else sql ++ wide ", "
      inputColumnLoop rest
        (sql ++ wide "?", false, inputColumnInfoList ++ [columnInfo.columnInfo])
    else inputColumnLoop rest (sql, isFirstParam, inputColumnInfoList)

/-- `MakeInputColumnToProcedureInfo`. -/
def makeInputColumnToProcedureInfo (answers : InputAnswers) (procedureNameBuffer : List UInt16)
    (outProcedureInfo : ProcedureInfo) : Bool × ProcedureInfo :=
  if sqlIsSuccess answers.sqlProcedureColumns = false then (false, outProcedureInfo)
  else if bindColumn answers.sqlBindCol = false then (false, outProcedureInfo)
  else
    let sql := wide "\x7bCALL " ++ cString procedureNameBuffer ++ wide "("
    let (sql, _, inputColumnInfoList) :=
      inputColumnLoop answers.sqlFetch (sql, true, outProcedureInfo.inputColumnInfoList)
    (true, { outProcedureInfo with sql := sql ++ wide ")\x7d", inputColumnInfoList })

/-! ## Result columns -/

/-- A `ResultColumnInfo`. -/
structure ResultColumnInfo where
  name : List UInt16
  nameLength : Int16
  dataType : Int16
  columnSize : UInt64
  decimalDigits : Int16
  nullable : Int16
  deriving DecidableEq, Repr

/-- What the driver answers to `MakeOutputColumnToProcedureInfo`; a column nothing is answered for
is none it has. -/
structure OutputAnswers where
  sqlNumResultCols : SqlReturn
  columnCount : Int16
  sqlDescribeCol : List (SqlReturn × ResultColumnInfo)

/-- `GetDataTypeName`, with the type codes of ODBC. -/
def getDataTypeName (inDataType : Int16) : WString :=
  if inDataType = -5 then wide "int64"
  else if inDataType = 2 ∨ inDataType = 3 ∨ inDataType = 4 then wide "int"
  else if inDataType = 6 ∨ inDataType = 7 then wide "float"
  else if inDataType = -9 then wide "nvarchar"
  else if inDataType = 12 then wide "string"
  else if inDataType = -7 then wide "bool"
  else []

/-- The constructor of `ColumnInfo` from a described column. -/
def ResultColumnInfo.columnInfo (resultColumn : ResultColumnInfo) : ColumnInfo where
  name := cString resultColumn.name
  columnType := resultColumn.dataType
  dataType := resultColumn.dataType.toInt32
  dataTypeName := getDataTypeName resultColumn.dataType
  columnSize := resultColumn.columnSize

/-- The loop over the result columns, with `n` turns to go. -/
def resultColumnLoop : ℕ → List (SqlReturn × ResultColumnInfo) → List ColumnInfo →
    Bool × List ColumnInfo
  | 0, _, resultColumnInfoList => (true, resultColumnInfoList)
  | _ + 1, [], resultColumnInfoList => (false, resultColumnInfoList)
  | n + 1, (ret, resultColumn) :: rest, resultColumnInfoList =>
    if sqlIsSuccess ret = false then (false, resultColumnInfoList)
    else resultColumnLoop n rest (resultColumnInfoList ++ [resultColumn.columnInfo])

/-- `MakeOutputColumnToProcedureInfo`. -/
def makeOutputColumnToProcedureInfo (answers : OutputAnswers) (procedureInfo : ProcedureInfo) :
    Bool × ProcedureInfo :=
  if sqlIsSuccess answers.sqlNumResultCols = false then (false, procedureInfo)
  else
    let (succeeded, resultColumnInfoList) := resultColumnLoop answers.columnCount.toInt.toNat
      answers.sqlDescribeCol procedureInfo.resultColumnInfoList
    (succeeded, { procedureInfo with resultColumnInfoList })

end ODBC

end DdingGameServer
