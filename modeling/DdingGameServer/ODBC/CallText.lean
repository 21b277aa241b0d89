import DdingGameServer.ODBC.Model
/-!
# ODBC — the text of a call

`MakeInputColumnToProcedureInfo` writes a question mark for every input column it lists, and a comma
before all of them but the first. The invariant of its loop is that the text ends in as many
question marks as there are columns listed, and that `isFirstParam` says that there are none.
-/

namespace DdingGameServer

namespace ODBC

variable {answers : InputAnswers} {procedureNameBuffer : List UInt16} {info : ProcedureInfo}
  {fetches : List (SqlReturn × InputColumnInfo)} {columns : List ColumnInfo} {n : ℕ}
  {start : WString}

/-- The rows that are fetched: those before the first unsuccessful fetch. -/
def fetchedRows (fetches : List (SqlReturn × InputColumnInfo)) : List InputColumnInfo :=
  (fetches.takeWhile fun fetch => sqlIsSuccess fetch.1).map Prod.snd

/-- Those of them that describe an input parameter. -/
def inputRows (fetches : List (SqlReturn × InputColumnInfo)) : List InputColumnInfo :=
  (fetchedRows fetches).filter fun row => row.columnType = sqlParamInput

/-- `k` question marks, separated by commas. -/
def placeholders (k : ℕ) : WString := List.intercalate (wide ", ") (List.replicate k (wide "?"))

/-- **The text of the call fits the columns.** -/
structure FitsCall (procedureName : WString) (rows : List InputColumnInfo) (info : ProcedureInfo) :
    Prop where
  sql : info.sql = wide "\x7bCALL " ++ procedureName ++ wide "(" ++ placeholders rows.length ++
    wide ")\x7d"
  columns : info.inputColumnInfoList = rows.map InputColumnInfo.columnInfo

/-! ## The loop -/

/-- **One more question mark**, with a comma if it is not the first. -/
theorem placeholders_succ (k : ℕ) :
    placeholders (k + 1) = (if k = 0 then placeholders k else placeholders k ++ wide ", ") ++
      wide "?" := by
  induction k with
  | zero => rfl
  | succ k ih =>
    have hcons (j : ℕ) : placeholders (j + 1 + 1) = wide "?" ++ wide ", " ++ placeholders (j + 1) :=
      List.intercalate_cons_cons
    rw [hcons k, if_neg (Nat.succ_ne_zero k)]
    cases k with
    | zero => rfl
    | succ j =>
      -- on the left the last question mark is split off, on the right the first
      conv_lhs => rw [ih, if_neg (Nat.succ_ne_zero j)]
      rw [hcons j]
      simp only [List.append_assoc]

theorem fetchedRows_cons {ret : SqlReturn} {row : InputColumnInfo} :
    fetchedRows ((ret, row) :: fetches) =
      if sqlIsSuccess ret then row :: fetchedRows fetches else [] := by
  cases h : sqlIsSuccess ret <;> simp [fetchedRows, h]

/-- **What the loop makes of the text so far**, with `n` columns listed before it. -/
theorem inputColumnLoop_eq (fetches : List (SqlReturn × InputColumnInfo)) (start : WString) (n : ℕ)
    (columns : List ColumnInfo) :
    inputColumnLoop fetches (start ++ placeholders n, decide (n = 0), columns) =
      (start ++ placeholders (n + (inputRows fetches).length),
        decide (n + (inputRows fetches).length = 0),
        columns ++ (inputRows fetches).map InputColumnInfo.columnInfo) := by
  induction fetches generalizing n columns with
  | nil => simp [inputColumnLoop, inputRows, fetchedRows]
  | cons fetch fetches ih =>
    obtain ⟨ret, row⟩ := fetch
    cases hret : sqlIsSuccess ret with
    | false => simp [inputColumnLoop, inputRows, fetchedRows_cons, hret]
    | true =>
      by_cases hinput : row.columnType = sqlParamInput
      · have hrows : inputRows ((ret, row) :: fetches) = row :: inputRows fetches := by
          simp [inputRows, fetchedRows_cons, hret, hinput]
        -- the text after this row has one question mark more
        have htext : (if decide (n = 0) then start ++ placeholders n
            else start ++ placeholders n ++ wide ", ") ++ wide "?" =
              start ++ placeholders (n + 1) := by
          rw [placeholders_succ]
          by_cases hn : n = 0 <;> simp [hn]
        have hfirst : decide (n + 1 = 0) = false := by simp
        rw [inputColumnLoop, if_neg (by simp [hret]), if_pos hinput]
        dsimp only
        rw [htext, ← hfirst, ih, hrows]
        simp [Nat.add_assoc, Nat.add_comm 1]
      · have hrows : inputRows ((ret, row) :: fetches) = inputRows fetches := by
          simp [inputRows, fetchedRows_cons, hret, hinput]
        rw [inputColumnLoop, if_neg (by simp [hret]), if_neg hinput, ih, hrows]

/-! ## The call -/

/-- It returns true where the columns can be asked for and bound. -/
theorem makeInputColumnToProcedureInfo_fst :
    (makeInputColumnToProcedureInfo answers procedureNameBuffer info).1 = true ↔
      sqlIsSuccess answers.sqlProcedureColumns = true ∧ bindColumn answers.sqlBindCol = true := by
  unfold makeInputColumnToProcedureInfo
  split
  · simp_all
  · split <;> simp_all

/-- **The text fits the columns**, for every name and every sequence of rows: as many question marks
as there are input parameters among the rows, and those in their order. -/
theorem fitsCall_of_returned (answers : InputAnswers) (procedureNameBuffer : List UInt16)
    (h : (makeInputColumnToProcedureInfo answers procedureNameBuffer {}).1 = true) :
    FitsCall (cString procedureNameBuffer) (inputRows answers.sqlFetch)
      (makeInputColumnToProcedureInfo answers procedureNameBuffer {}).2 := by
  obtain ⟨hcolumns, hbind⟩ := makeInputColumnToProcedureInfo_fst.mp h
  have hloop := inputColumnLoop_eq answers.sqlFetch
    (wide "\x7bCALL " ++ cString procedureNameBuffer ++ wide "(") 0 []
  rw [show placeholders 0 = [] from rfl, List.append_nil, decide_eq_true rfl] at hloop
  unfold makeInputColumnToProcedureInfo
  rw [if_neg (by simp [hcolumns]), if_neg (by simp [hbind])]
  dsimp only
  rw [hloop]
  exact ⟨by rw [Nat.zero_add], List.nil_append _⟩

/-- Two parameters of three rows. -/
def threeRows : InputAnswers where
  sqlProcedureColumns := .success
  sqlBindCol _ := .success
  sqlFetch :=
    [(.success, ⟨wide "@RETURN_VALUE", 5, 4, wide "int", 4⟩),
      (.success, ⟨wide "@id", 1, 4, wide "int", 4⟩),
      (.successWithInfo, ⟨wide "@name", 1, -9, wide "nvarchar", 30⟩),
      (.noData, ⟨wide "@name", 1, -9, wide "nvarchar", 30⟩)]

theorem fitsCall_threeRows :
    FitsCall (wide "p") (inputRows threeRows.sqlFetch)
      (makeInputColumnToProcedureInfo threeRows (wide "p") {}).2 :=
  fitsCall_of_returned threeRows (wide "p") (by decide)

example : (makeInputColumnToProcedureInfo threeRows (wide "p") {}).2.sql = wide "\x7bCALL p(?, ?)\x7d" := by
  decide

end ODBC

end DdingGameServer
