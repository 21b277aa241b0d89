import DdingGameServer.Common.Autocommit
import DdingGameServer.Common.KeyMap
import DdingGameServer.ODBC.CallText
/-!
# ODBC — probing the procedures

To learn the columns of its result, `MakeProcedureColumnInfoFromDB` executes every stored procedure
once, with autocommit off, and rolls it back. Every way out of the loop but the last leaves the
connection in manual mode, with the transaction of the probe open; and the result of the rollback is
not looked at, so that the work of a probe stays open until a later rollback succeeds, or until
autocommit is switched on and commits it.

The driver answers each call as it likes. What the execution of a procedure has done to the database
is any work, also where the execution fails.
-/

namespace DdingGameServer

namespace ODBC

universe u

variable {Work : Type u}

/-- What `UTF8ToUTF16` and the driver answer while one procedure is probed. -/
structure ProbeAnswers (Work : Type u) where
  /-- The name in the buffer, where it fits. -/
  utf8ToUTF16 : Option (List UInt16)
  input : InputAnswers
  sqlPrepare : SqlReturn
  sqlExecute : SqlReturn
  /-- What the execution did. -/
  work : List Work
  output : OutputAnswers
  /-- `SQLEndTran` with `SQL_ROLLBACK`. -/
  sqlEndTran : SqlReturn

/-- A turn of the loop: the procedure's description, `none` where the function returns false, and
the connection. What `SettingDefaultSPMaker` returns is not looked at. -/
def probe (answers : ProbeAnswers Work) (conn : Connection Work) :
    Option ProcedureInfo × Connection Work :=
  match answers.utf8ToUTF16 with
  | none => (none, conn)
  | some procedureNameBuffer =>
    -- `SQLProcedureColumns` is a query as well
    let conn := conn.execute []
    let (succeeded, procedureInfo) :=
      makeInputColumnToProcedureInfo answers.input procedureNameBuffer {}
    if succeeded = false then (none, conn)
    else if sqlIsSuccess answers.sqlPrepare = false then (none, conn)
    else
      let conn := conn.execute answers.work
      if sqlIsSuccess answers.sqlExecute = false then (none, conn)
      else
        let (succeeded, procedureInfo) :=
          makeOutputColumnToProcedureInfo answers.output procedureInfo
        if succeeded = false then (none, conn)
        else (some procedureInfo, conn.rollback (sqlIsSuccess answers.sqlEndTran))

/-- The loop over the procedures: whether it ran to its end. -/
def probeLoop (answers : ProcedureName → ProbeAnswers Work) :
    List ProcedureName → Connection Work → KeyMap ProcedureName ProcedureInfo →
      Bool × Connection Work × KeyMap ProcedureName ProcedureInfo
  | [], conn, procedureInfoMap => (true, conn, procedureInfoMap)
  | procedureName :: rest, conn, procedureInfoMap =>
    match probe (answers procedureName) conn with
    | (none, conn) => (false, conn, procedureInfoMap)
    | (some procedureInfo, conn) =>
      probeLoop answers rest conn (procedureInfoMap.insert procedureName procedureInfo)

/-- `MakeProcedureColumnInfoFromDB`: `autocommitOff` and `autocommitOn` are the answers to the two
`SQLSetConnectAttr`. -/
def makeProcedureColumnInfoFromDB (autocommitOff autocommitOn : SqlReturn)
    (answers : ProcedureName → ProbeAnswers Work) (procedureNameList : List ProcedureName)
    (conn : Connection Work) (procedureInfoMap : KeyMap ProcedureName ProcedureInfo) :
    Bool × Connection Work × KeyMap ProcedureName ProcedureInfo :=
  if sqlIsSuccess autocommitOff = false then (false, conn, procedureInfoMap)
  else
    match probeLoop answers procedureNameList conn.autocommitOff procedureInfoMap with
    | (false, conn, procedureInfoMap) => (false, conn, procedureInfoMap)
    | (true, conn, procedureInfoMap) =>
      if sqlIsSuccess autocommitOn = false then (false, conn, procedureInfoMap)
      else (true, conn.autocommitOn, procedureInfoMap)

/-! ## What is expected -/

/-- **The connection is as it was**: in autocommit mode, so without an open transaction, and nothing
was committed. -/
structure LeftAlone (before after : Connection Work) : Prop where
  autocommit : after.mode = .autocommit
  database : after.committed = before.committed

/-- The result columns can be described. -/
structure OutputAnswers.Succeeds (answers : OutputAnswers) : Prop where
  counted : sqlIsSuccess answers.sqlNumResultCols = true
  enough : answers.columnCount.toInt.toNat ≤ answers.sqlDescribeCol.length
  described : ∀ answer ∈ answers.sqlDescribeCol.take answers.columnCount.toInt.toNat,
    sqlIsSuccess answer.1 = true

/-- Every call of the probe before its rollback succeeds. -/
structure ProbeAnswers.Succeeds (answers : ProbeAnswers Work) : Prop where
  named : answers.utf8ToUTF16.isSome
  asked : sqlIsSuccess answers.input.sqlProcedureColumns = true
  bound : bindColumn answers.input.sqlBindCol = true
  prepared : sqlIsSuccess answers.sqlPrepare = true
  executed : sqlIsSuccess answers.sqlExecute = true
  described : answers.output.Succeeds

/-- **Behind every probe that has done something a rollback succeeds**: its own, or that of a later
one. -/
def RolledBack (answers : ProcedureName → ProbeAnswers Work) : List ProcedureName → Prop
  | [] => True
  | procedureName :: rest =>
    ((answers procedureName).work = [] ∨
      ∃ later ∈ procedureName :: rest, sqlIsSuccess (answers later).sqlEndTran = true) ∧
    RolledBack answers rest

/-! ## One probe -/

variable {a : ProbeAnswers Work} {c : Connection Work} {info : ProcedureInfo}
  {answers : ProcedureName → ProbeAnswers Work} {names : List ProcedureName}

theorem resultColumnLoop_fst (n : ℕ) (describe : List (SqlReturn × ResultColumnInfo))
    (columns : List ColumnInfo) : (resultColumnLoop n describe columns).1 = true ↔
      n ≤ describe.length ∧ ∀ answer ∈ describe.take n, sqlIsSuccess answer.1 = true := by
  induction n generalizing describe columns with
  | zero => simp [resultColumnLoop]
  | succ n ih =>
    cases describe with
    | nil => simp [resultColumnLoop]
    | cons answer describe =>
      obtain ⟨ret, column⟩ := answer
      rw [resultColumnLoop]
      cases hret : sqlIsSuccess ret with
      | false => simp [hret]
      | true => simp [ih, hret]

theorem makeOutputColumnToProcedureInfo_fst (answers : OutputAnswers) :
    (makeOutputColumnToProcedureInfo answers info).1 = true ↔ answers.Succeeds := by
  unfold makeOutputColumnToProcedureInfo
  cases hcounted : sqlIsSuccess answers.sqlNumResultCols with
  | false =>
    refine iff_of_false (by simp) fun h => ?_
    rw [h.counted] at hcounted
    cases hcounted
  | true =>
    rw [if_neg (by simp)]
    dsimp only
    rw [resultColumnLoop_fst]
    exact ⟨fun h => ⟨hcounted, h.1, h.2⟩, fun h => ⟨h.enough, h.described⟩⟩

/-- **A probe that succeeds** goes on with what was open and its own work, unless it is rolled
back. -/
theorem ProbeAnswers.Succeeds.probe_eq (h : a.Succeeds) : ∃ info, probe a c =
    (some info, ((c.execute []).execute a.work).rollback (sqlIsSuccess a.sqlEndTran)) := by
  obtain ⟨buffer, hbuffer⟩ := Option.isSome_iff_exists.mp h.named
  have hinput : (makeInputColumnToProcedureInfo a.input buffer {}).1 = true :=
    makeInputColumnToProcedureInfo_fst.mpr ⟨h.asked, h.bound⟩
  have houtput : (makeOutputColumnToProcedureInfo a.output
      (makeInputColumnToProcedureInfo a.input buffer {}).2).1 = true :=
    (makeOutputColumnToProcedureInfo_fst a.output).mpr h.described
  refine ⟨(makeOutputColumnToProcedureInfo a.output
    (makeInputColumnToProcedureInfo a.input buffer {}).2).2, ?_⟩
  simp only [probe, hbuffer, hinput, h.prepared, h.executed, houtput, Bool.true_eq_false, if_false]

/-- **A probe that does not** ends the function, in whatever mode the connection is. -/
theorem probe_eq_none (h : ¬ a.Succeeds) (hc : c.IsManual) :
    ∃ c', probe a c = (none, c') ∧ c'.IsManual := by
  have hasked := hc.execute [] |>.1
  have hexecuted := hasked.execute a.work |>.1
  unfold probe
  cases hbuffer : a.utf8ToUTF16 with
  | none => exact ⟨c, rfl, hc⟩
  | some buffer =>
    dsimp only
    split
    · exact ⟨_, rfl, hasked⟩
    rename_i hinput
    split
    · exact ⟨_, rfl, hasked⟩
    rename_i hprepared
    split
    · exact ⟨_, rfl, hexecuted⟩
    rename_i hsqlExecute
    split
    · exact ⟨_, rfl, hexecuted⟩
    rename_i houtput
    -- all six have succeeded
    rw [Bool.not_eq_false, makeInputColumnToProcedureInfo_fst] at hinput
    rw [Bool.not_eq_false, makeOutputColumnToProcedureInfo_fst] at houtput
    exact absurd ⟨by rw [hbuffer]; rfl, hinput.1, hinput.2, by simpa using hprepared,
      by simpa using hsqlExecute, houtput⟩ h

/-! ## The loop -/

/-- **Through the loop** the connection stays in manual mode and nothing is committed; where every
probe succeeds, nothing is left open exactly if every probe's work, and what was open before, is
rolled back. -/
theorem probeLoop_of_succeeds (h : ∀ name ∈ names, (answers name).Succeeds) (hc : c.IsManual)
    (map : KeyMap ProcedureName ProcedureInfo) :
    ∃ c' map', probeLoop answers names c map = (true, c', map') ∧ c'.IsManual ∧
      c'.committed = c.committed ∧
      (c'.uncommitted = [] ↔ (c.uncommitted = [] ∨
        ∃ name ∈ names, sqlIsSuccess (answers name).sqlEndTran = true) ∧
          RolledBack answers names) := by
  induction names generalizing c map with
  | nil => exact ⟨c, map, rfl, hc, rfl, by simp [RolledBack]⟩
  | cons name names ih =>
    obtain ⟨info, hprobe⟩ := (h name List.mem_cons_self).probe_eq (c := c)
    obtain ⟨hm₁, hcommitted₁, hopen₁⟩ := hc.execute []
    obtain ⟨hm₂, hcommitted₂, hopen₂⟩ := hm₁.execute (answers name).work
    obtain ⟨hm₃, hcommitted₃, hopen₃⟩ :=
      hm₂.rollback (sqlIsSuccess (answers name).sqlEndTran)
    obtain ⟨c', map', hloop, hmanual, hcommitted, hopen⟩ :=
      ih (fun later hlater => h later (List.mem_cons_of_mem _ hlater)) hm₃ (map.insert name info)
    refine ⟨c', map', ?_, hmanual, ?_, ?_⟩
    · rw [probeLoop, hprobe]
      exact hloop
    · rw [hcommitted, hcommitted₃, hcommitted₂, hcommitted₁]
    · rw [hopen, hopen₃, hopen₂, hopen₁, List.append_nil, RolledBack]
      cases hok : sqlIsSuccess (answers name).sqlEndTran with
      | true => simp [hok]
      | false => simp [hok, List.append_eq_nil_iff, and_or_right, and_assoc]

/-- **Where a probe does not**, the function returns in manual mode. -/
theorem probeLoop_of_not_succeeds (h : ∃ name ∈ names, ¬ (answers name).Succeeds)
    (hc : c.IsManual) (map : KeyMap ProcedureName ProcedureInfo) :
    ∃ c' map', probeLoop answers names c map = (false, c', map') ∧ c'.IsManual := by
  induction names generalizing c map with
  | nil =>
    obtain ⟨name, hname, -⟩ := h
    cases hname
  | cons name names ih =>
    by_cases hname : (answers name).Succeeds
    · obtain ⟨info, hprobe⟩ := hname.probe_eq (c := c)
      have hrest : ∃ later ∈ names, ¬ (answers later).Succeeds := by
        obtain ⟨later, hlater, hnot⟩ := h
        refine ⟨later, (List.mem_cons.mp hlater).resolve_left ?_, hnot⟩
        rintro rfl
        exact hnot hname
      have hmanual := ((hc.execute []).1.execute (answers name).work).1
      obtain ⟨c', map', hloop, hmanual⟩ := ih hrest
        (hmanual.rollback (sqlIsSuccess (answers name).sqlEndTran)).1 (map.insert name info)
      exact ⟨c', map', by rw [probeLoop, hprobe]; exact hloop, hmanual⟩
    · obtain ⟨c', hprobe, hmanual⟩ := probe_eq_none hname hc
      exact ⟨c', map, by rw [probeLoop, hprobe], hmanual⟩

/-! ## When the connection is left alone -/

/-- **The connection and the database are left alone** exactly if every call of every probe before
its rollback succeeds, and a rollback succeeds behind every probe that has done something. -/
theorem leftAlone_iff (autocommitOff autocommitOn : SqlReturn)
    (answers : ProcedureName → ProbeAnswers Work) (procedureNameList : List ProcedureName)
    (procedureInfoMap : KeyMap ProcedureName ProcedureInfo) (conn : Connection Work)
    (hconn : conn.mode = .autocommit) (hoff : sqlIsSuccess autocommitOff = true)
    (hon : sqlIsSuccess autocommitOn = true) :
    LeftAlone conn (makeProcedureColumnInfoFromDB autocommitOff autocommitOn answers
        procedureNameList conn procedureInfoMap).2.1 ↔
      (∀ name ∈ procedureNameList, (answers name).Succeeds) ∧
        RolledBack answers procedureNameList := by
  have hmanual : conn.autocommitOff.IsManual := Connection.isManual_autocommitOff
  unfold makeProcedureColumnInfoFromDB
  rw [if_neg (by simp [hoff])]
  by_cases hall : ∀ name ∈ procedureNameList, (answers name).Succeeds
  · obtain ⟨c', map', hloop, -, hcommitted, hopen⟩ := probeLoop_of_succeeds hall hmanual
      procedureInfoMap
    rw [hloop]
    dsimp only
    rw [if_neg (by simp [hon])]
    rw [Connection.committed_autocommitOff] at hcommitted
    rw [Connection.uncommitted_autocommitOff hconn] at hopen
    have hdatabase : c'.autocommitOn.committed = conn.committed ↔ RolledBack answers
        procedureNameList := by
      rw [← hcommitted, Connection.committed_autocommitOn_eq_iff, hopen, and_iff_right (.inl rfl)]
    rw [and_iff_right hall, ← hdatabase]
    exact ⟨LeftAlone.database, fun h => ⟨rfl, h⟩⟩
  · push Not at hall
    obtain ⟨c', map', hloop, hstill⟩ := probeLoop_of_not_succeeds hall hmanual
      procedureInfoMap
    rw [hloop]
    refine iff_of_false (fun h => hstill h.autocommit) fun h => ?_
    obtain ⟨name, hname, hnot⟩ := hall
    exact hnot (h.1 name hname)

/-- A procedure that updates a row, and has no result: every call succeeds but those given. -/
def updateAnswers (sqlExecute sqlEndTran : SqlReturn) : ProbeAnswers String where
  utf8ToUTF16 := some (wide "update_test")
  input := ⟨.success, fun _ => .success, []⟩
  sqlPrepare := .success
  sqlExecute := sqlExecute
  work := ["update"]
  output := ⟨.success, 0, []⟩
  sqlEndTran := sqlEndTran

/-- The connection and the database after two such procedures were probed. -/
def probedUpdates (sqlExecute sqlEndTran : SqlReturn) : Bool × Connection String :=
  let probed := makeProcedureColumnInfoFromDB .success .success
    (fun _ => updateAnswers sqlExecute sqlEndTran) ["update_test", "update_test_2"] .opened .empty
  (probed.1, probed.2.1)

/-- Two updates, rolled back. -/
theorem leftAlone_updates :
    LeftAlone Connection.opened (probedUpdates .success .success).2 := by
  refine (leftAlone_iff .success .success (fun _ => updateAnswers .success .success)
    ["update_test", "update_test_2"] .empty .opened rfl rfl rfl).mpr ⟨fun name _ => ?_, ?_⟩
  · exact ⟨rfl, rfl, rfl, rfl, rfl, ⟨rfl, by decide, by decide⟩⟩
  · exact ⟨.inr ⟨_, List.mem_cons_self, rfl⟩, .inr ⟨_, List.mem_cons_self, rfl⟩, trivial⟩

/-- **Where the execution of a probe fails**, the function returns false with the transaction open;
**where the rollbacks fail**, it returns true with the updates committed. -/
theorem not_leftAlone_updates :
    probedUpdates .error .success = (false, ⟨.manual (some ["update"]), []⟩) ∧
      ¬ LeftAlone Connection.opened (probedUpdates .error .success).2 ∧
      probedUpdates .success .error = (true, ⟨.autocommit, ["update", "update"]⟩) ∧
      ¬ LeftAlone Connection.opened (probedUpdates .success .error).2 := by
  have hexecute : probedUpdates .error .success =
      (false, ⟨.manual (some ["update"]), []⟩) := rfl
  have hrollback : probedUpdates .success .error =
      (true, ⟨.autocommit, ["update", "update"]⟩) := rfl
  refine ⟨hexecute, fun h => ?_, hrollback, fun h => ?_⟩
  · rw [hexecute] at h
    exact absurd h.autocommit (by simp)
  · rw [hrollback] at h
    exact absurd h.database (by simp [Connection.opened])

end ODBC

end DdingGameServer
