import DdingGameServer.Common.OrderedMap
import DdingGameServer.ODBC.Parameters
import DdingGameServer.ODBC.Probing
import Mathlib.Data.String.Basic
/-!
# ODBC — what can be called after InitDB

`InitDB` asks the database for the names of its procedures, cuts each at its first semicolon, and
probes them in the order of a `std::set`: not in the order they were listed in, and a name that is
listed twice once. What it knows then is the procedures below the first whose probe fails, where the
listing went through, and nothing otherwise (`initialised_initDB`); so a procedure that cannot be
executed takes away those that come after it in the alphabet. A call hands `SQLExecDirect` no other
text than the one that was made for its name.
-/

namespace DdingGameServer

namespace ODBC

universe u

variable {Work : Type u}

/-- What the driver answers to a turn of the loop over the names: `procedureName` is what the buffer
holds after `SQLGetData`, up to its terminator. -/
structure NameAnswers where
  sqlFetch : SqlReturn
  sqlGetData : SqlReturn
  procedureName : String
  deriving DecidableEq, Repr

/-- A `std::set<ProcedureName>`, in the order of the bytes of the names. -/
abbrev ProcedureNameSet := OrderedMap ProcedureName Unit

/-- `procInfo.substr(0, procInfo.find(';'))`. -/
def procName (procInfo : String) : ProcedureName :=
  String.ofList (procInfo.toList.takeWhile (· ≠ ';'))

/-- The loop of `GetProcedureNameFromDB`: whether it runs to its end, and the names. -/
def procedureNameLoop : List NameAnswers → ProcedureNameSet → Bool × ProcedureNameSet
  | [], procedureNameList => (true, procedureNameList)
  | row :: rest, procedureNameList =>
    if row.sqlFetch ≠ .success then (true, procedureNameList)
    else if sqlIsSuccess row.sqlGetData = false then (false, procedureNameList)
    else procedureNameLoop rest (procedureNameList.emplace (procName row.procedureName) ())

/-- What the driver answers to `InitDB`; `stmtHandle` is whether there is a default statement
handle. -/
structure InitAnswers (Work : Type u) where
  stmtHandle : Bool
  sqlProcedures : SqlReturn
  sqlFetch : List NameAnswers
  autocommitOff : SqlReturn
  autocommitOn : SqlReturn
  probes : ProcedureName → ProbeAnswers Work

/-- `GetProcedureNameFromDB`, with the connection it leaves: `SQLProcedures` is a query. -/
def getProcedureNameFromDB (answers : InitAnswers Work) (conn : Connection Work) :
    Bool × Connection Work × ProcedureNameSet :=
  if answers.stmtHandle = false then (false, conn, .empty)
  else if answers.sqlProcedures ≠ .success then (false, conn.execute [], .empty)
  else
    let (succeeded, procedureNameList) := procedureNameLoop answers.sqlFetch .empty
    (succeeded, conn.execute [], procedureNameList)

/-- **`InitDB`**, with `MakeProcedureFromDB`: what it returns, the connection, and the
`procedureInfoMap` of the new metadata. -/
def initDB (answers : InitAnswers Work) (conn : Connection Work) :
    Bool × Connection Work × KeyMap ProcedureName ProcedureInfo :=
  match getProcedureNameFromDB answers conn with
  | (false, conn, _) => (false, conn, .empty)
  | (true, conn, procedureNameList) =>
    makeProcedureColumnInfoFromDB answers.autocommitOff answers.autocommitOn answers.probes
      (procedureNameList.entries.map Prod.fst) conn .empty

/-- `GetProcedureInfo`; `none` is the null pointer. -/
def getProcedureInfo (procedureInfoMap : KeyMap ProcedureName ProcedureInfo)
    (procedureName : ProcedureName) : Option ProcedureInfo :=
  procedureInfoMap.find procedureName

/-! ## What is expected -/

/-- The rows of the listing that are fetched. -/
def InitAnswers.rows (answers : InitAnswers Work) : List NameAnswers :=
  answers.sqlFetch.takeWhile fun row => row.sqlFetch = .success

/-- The names of the listing. -/
def InitAnswers.names (answers : InitAnswers Work) : List ProcedureName :=
  answers.rows.map fun row => procName row.procedureName

/-- The listing goes through. -/
structure InitAnswers.Lists (answers : InitAnswers Work) : Prop where
  connected : answers.stmtHandle = true
  asked : answers.sqlProcedures = .success
  got : ∀ row ∈ answers.rows, sqlIsSuccess row.sqlGetData = true

/-- **A procedure comes to be known**: it is listed, and no probe fails up to its own, in the order
of the names. -/
structure InitAnswers.Knows (answers : InitAnswers Work) (name : ProcedureName) : Prop where
  lists : answers.Lists
  manual : sqlIsSuccess answers.autocommitOff = true
  mem : name ∈ answers.names
  succeeds : ∀ earlier ∈ answers.names, earlier ≤ name → (answers.probes earlier).Succeeds

/-- **A description fits what the driver has answered.** -/
structure ProbeAnswers.Describes (a : ProbeAnswers Work) (info : ProcedureInfo) : Prop where
  call : ∃ buffer, a.utf8ToUTF16 = some buffer ∧
    FitsCall (cString buffer) (inputRows a.input.sqlFetch) info
  results : info.resultColumnInfoList = (a.output.sqlDescribeCol.take
    a.output.columnCount.toInt.toNat).map fun answer => answer.2.columnInfo

/-- **What InitDB leaves.** -/
structure Initialised (answers : InitAnswers Work)
    (result : Bool × Connection Work × KeyMap ProcedureName ProcedureInfo) : Prop where
  returns : result.1 = true ↔ answers.Lists ∧ sqlIsSuccess answers.autocommitOff = true ∧
    (∀ name ∈ answers.names, (answers.probes name).Succeeds) ∧
    sqlIsSuccess answers.autocommitOn = true
  known : ∀ name, (getProcedureInfo result.2.2 name).isSome = true ↔ answers.Knows name
  describes : ∀ name info, getProcedureInfo result.2.2 name = some info →
    (answers.probes name).Describes info
  calls : ∀ sqlBindParameter sqlExecDirect name input args text,
    (callSPDirect sqlBindParameter sqlExecDirect (getProcedureInfo result.2.2 name) input args).2 =
      some text → answers.Knows name ∧ ∃ buffer, (answers.probes name).utf8ToUTF16 = some buffer ∧
        text = wide "\x7bCALL " ++ cString buffer ++ wide "(" ++
          placeholders (inputRows (answers.probes name).input.sqlFetch).length ++ wide ")\x7d"

/-! ## The names -/

variable {answers : InitAnswers Work} {probes : ProcedureName → ProbeAnswers Work}
  {a : ProbeAnswers Work} {c : Connection Work} {info : ProcedureInfo} {name : ProcedureName}
  {names : List ProcedureName} {map : KeyMap ProcedureName ProcedureInfo}

/-- **The loop inserts the names of its rows.** -/
theorem procedureNameLoop_eq (rows : List NameAnswers) (procedureNameList : ProcedureNameSet) :
    ((procedureNameLoop rows procedureNameList).1 = true ↔
      ∀ row ∈ rows.takeWhile fun row => row.sqlFetch = .success,
        sqlIsSuccess row.sqlGetData = true) ∧
    ((procedureNameLoop rows procedureNameList).1 = true → ∀ name,
      name ∈ (procedureNameLoop rows procedureNameList).2.entries.map Prod.fst ↔
        name ∈ procedureNameList.entries.map Prod.fst ∨
        name ∈ (rows.takeWhile fun row => row.sqlFetch = .success).map
          fun row => procName row.procedureName) := by
  induction rows generalizing procedureNameList with
  | nil => exact ⟨by simp [procedureNameLoop], fun _ name => by simp [procedureNameLoop]⟩
  | cons row rest ih =>
    by_cases hfetch : row.sqlFetch = .success
    · cases hgot : sqlIsSuccess row.sqlGetData with
      | false => simp [procedureNameLoop, hfetch, hgot]
      | true =>
        obtain ⟨hflag, hnames⟩ := ih (procedureNameList.emplace (procName row.procedureName) ())
        have hloop : procedureNameLoop (row :: rest) procedureNameList =
            procedureNameLoop rest
              (procedureNameList.emplace (procName row.procedureName) ()) := by
          rw [procedureNameLoop, if_neg (by simp [hfetch]), if_neg (by simp [hgot])]
        rw [hloop, List.takeWhile_cons_of_pos (by simp [hfetch])]
        refine ⟨hflag.trans ⟨fun h => List.forall_mem_cons.mpr ⟨hgot, h⟩,
          fun h => (List.forall_mem_cons.mp h).2⟩, fun h name => ?_⟩
        rw [hnames h name, OrderedMap.mem_keys_emplace, List.map_cons, List.mem_cons, or_assoc]
        exact or_left_comm
    · rw [procedureNameLoop, if_pos hfetch, List.takeWhile_cons_of_neg (by simpa using hfetch)]
      exact ⟨by simp, fun _ name => by simp⟩

/-! ## The probes -/

/-- What a probe finds out does not depend on the connection, -/
theorem probe_fst_congr (c c' : Connection Work) : (probe a c).1 = (probe a c').1 := by
  unfold probe
  split
  · rfl
  · dsimp only
    split
    · rfl
    · split
      · rfl
      · split
        · rfl
        · split <;> rfl

/-- it is something where the probe succeeds, -/
theorem isSome_probe_fst : (probe a c).1.isSome = true ↔ a.Succeeds := by
  rw [probe_fst_congr c c.autocommitOff]
  constructor
  · intro h
    by_contra hnot
    obtain ⟨c', hprobe, -⟩ := probe_eq_none hnot (c := c.autocommitOff)
      Connection.isManual_autocommitOff
    rw [hprobe] at h
    cases h
  · intro h
    obtain ⟨info, hprobe⟩ := h.probe_eq (c := c.autocommitOff)
    rw [hprobe]
    rfl

theorem resultColumnLoop_snd (n : ℕ) (describe : List (SqlReturn × ResultColumnInfo))
    (columns : List ColumnInfo) (h : (resultColumnLoop n describe columns).1 = true) :
    (resultColumnLoop n describe columns).2 =
      columns ++ (describe.take n).map fun answer => answer.2.columnInfo := by
  induction n generalizing describe columns with
  | zero => simp [resultColumnLoop]
  | succ n ih =>
    cases describe with
    | nil => cases h
    | cons answer describe =>
      obtain ⟨ret, column⟩ := answer
      rw [resultColumnLoop] at h ⊢
      split at h
      · cases h
      · rename_i hret
        rw [if_neg hret, ih _ _ h, List.append_assoc]
        rfl

/-- What the rows of the input columns leave of the description. -/
theorem makeInputColumnToProcedureInfo_snd {answers : InputAnswers} {buffer : List UInt16}
    (h : (makeInputColumnToProcedureInfo answers buffer {}).1 = true) :
    FitsCall (cString buffer) (inputRows answers.sqlFetch)
        (makeInputColumnToProcedureInfo answers buffer {}).2 ∧
      (makeInputColumnToProcedureInfo answers buffer {}).2.resultColumnInfoList = [] := by
  obtain ⟨hcolumns, hbind⟩ := makeInputColumnToProcedureInfo_fst.mp h
  have hloop := inputColumnLoop_eq answers.sqlFetch
    (wide "\x7bCALL " ++ cString buffer ++ wide "(") 0 []
  rw [show placeholders 0 = [] from rfl, List.append_nil, decide_eq_true rfl, Nat.zero_add] at hloop
  unfold makeInputColumnToProcedureInfo
  rw [if_neg (by simp [hcolumns]), if_neg (by simp [hbind])]
  dsimp only
  rw [hloop]
  exact ⟨⟨rfl, List.nil_append _⟩, rfl⟩

/-- and it fits the answers. -/
theorem describes_of_probe (h : (probe a c).1 = some info) : a.Describes info := by
  have hsucceeds : a.Succeeds := isSome_probe_fst.mp (by rw [h]; rfl)
  unfold probe at h
  split at h
  · cases h
  rename_i buffer hbuffer
  dsimp only at h
  split at h
  · cases h
  rename_i hinput
  split at h
  · cases h
  split at h
  · cases h
  split at h
  · cases h
  rename_i houtput
  obtain rfl := Option.some.inj h
  rw [Bool.not_eq_false] at hinput houtput
  obtain ⟨hcall, hresults⟩ := makeInputColumnToProcedureInfo_snd hinput
  have hcounted := hsucceeds.described.counted
  simp only [makeOutputColumnToProcedureInfo, hcounted, Bool.true_eq_false, if_false] at houtput ⊢
  refine ⟨⟨buffer, hbuffer, hcall.sql, hcall.columns⟩, ?_⟩
  rw [resultColumnLoop_snd _ _ _ houtput, hresults]
  rfl

/-- **What the loop comes to know**, of names in their order: the ones below the first whose probe
fails, each as its probe has found it. -/
theorem find_probeLoop (probes : ProcedureName → ProbeAnswers Work)
    (map : KeyMap ProcedureName ProcedureInfo) (hsorted : names.Pairwise (· < ·))
    (hfree : ∀ name ∈ names, map.find name = none) :
    ((probeLoop probes names c map).1 = true ↔ ∀ name ∈ names, (probes name).Succeeds) ∧
      ∀ name info, (probeLoop probes names c map).2.2.find name = some info ↔
        map.find name = some info ∨ name ∈ names ∧
          (∀ earlier ∈ names, earlier ≤ name → (probes earlier).Succeeds) ∧
          (probe (probes name) c).1 = some info := by
  induction names generalizing c map with
  | nil => exact ⟨by simp [probeLoop], fun name info => by simp [probeLoop]⟩
  | cons first rest ih =>
    obtain ⟨hfirst, hsorted⟩ := List.pairwise_cons.mp hsorted
    obtain ⟨hfirstFree, hfree⟩ := List.forall_mem_cons.mp hfree
    have hle : ∀ name ∈ first :: rest, first ≤ name := by
      intro name hname
      rcases List.mem_cons.mp hname with rfl | hname
      · exact le_rfl
      · exact (hfirst name hname).le
    obtain ⟨found, c', hprobe⟩ : ∃ found c', probe (probes first) c = (found, c') := ⟨_, _, rfl⟩
    have hfst : (probe (probes first) c).1 = found := by rw [hprobe]
    by_cases hsucceeds : (probes first).Succeeds
    · obtain ⟨info', rfl⟩ := Option.isSome_iff_exists.mp
        (hfst ▸ isSome_probe_fst.mpr hsucceeds)
      have hfree' : ∀ name ∈ rest, (map.insert first info').find name = none := fun name hname => by
        rw [KeyMap.find_insert_of_ne (hfirst name hname).ne', hfree name hname]
      have hloop : probeLoop probes (first :: rest) c map =
          probeLoop probes rest c' (map.insert first info') := by
        rw [probeLoop, hprobe]
      obtain ⟨hflag, hfind⟩ := ih (c := c') _ hsorted hfree'
      rw [hloop]
      refine ⟨hflag.trans ⟨fun h => List.forall_mem_cons.mpr ⟨hsucceeds, h⟩,
        fun h => (List.forall_mem_cons.mp h).2⟩, fun name info => ?_⟩
      rw [hfind, probe_fst_congr c' c]
      by_cases hname : name = first
      · subst hname
        have hnot : name ∉ rest := fun hmem => lt_irrefl name (hfirst name hmem)
        have hall : ∀ earlier ∈ name :: rest, earlier ≤ name → (probes earlier).Succeeds := by
          intro earlier hearlier hle'
          rwa [le_antisymm hle' (hle earlier hearlier)]
        rw [hfst, hfirstFree, KeyMap.insert_of_none hfirstFree, KeyMap.find_assign_self]
        exact ⟨fun h => .inr ⟨List.mem_cons_self, hall, h.resolve_right fun h => hnot h.1⟩,
          fun h => .inl (h.resolve_left (by simp)).2.2⟩
      · rw [KeyMap.find_insert_of_ne hname, List.mem_cons, or_iff_right hname]
        refine or_congr_right (and_congr_right fun hmem => and_congr_left fun _ => ?_)
        exact ⟨fun h => List.forall_mem_cons.mpr ⟨fun _ => hsucceeds, h⟩,
          fun h => (List.forall_mem_cons.mp h).2⟩
    · obtain rfl : found = none := by
        by_contra hne
        exact hsucceeds (isSome_probe_fst.mp
          (by rw [hfst]; exact Option.isSome_iff_ne_none.mpr hne))
      have hloop : probeLoop probes (first :: rest) c map = (false, c', map) := by
        rw [probeLoop, hprobe]
      rw [hloop]
      refine ⟨iff_of_false (by simp) fun h => hsucceeds (h first List.mem_cons_self),
        fun name info => (or_iff_left ?_).symm⟩
      rintro ⟨hmem, hall, -⟩
      exact hsucceeds (hall first List.mem_cons_self (hle name hmem))

/-! ## InitDB -/

theorem getProcedureNameFromDB_eq (answers : InitAnswers Work) (conn : Connection Work) :
    ((getProcedureNameFromDB answers conn).1 = true ↔ answers.Lists) ∧
      ((getProcedureNameFromDB answers conn).1 = true → ∀ name,
        name ∈ (getProcedureNameFromDB answers conn).2.2.entries.map Prod.fst ↔
          name ∈ answers.names) := by
  obtain ⟨hflag, hnames⟩ := procedureNameLoop_eq answers.sqlFetch .empty
  unfold getProcedureNameFromDB
  split
  · rename_i hconnected
    exact ⟨iff_of_false (by simp) fun h => by simp [h.connected] at hconnected, fun h => nomatch h⟩
  rename_i hconnected
  split
  · rename_i hasked
    exact ⟨iff_of_false (by simp) fun h => hasked h.asked, fun h => nomatch h⟩
  rename_i hasked
  refine ⟨hflag.trans ⟨fun h => ⟨by simpa using hconnected, by simpa using hasked, h⟩,
    fun h => h.got⟩, fun h name => (hnames h name).trans ?_⟩
  exact or_iff_right (by simp [OrderedMap.empty])

/-- What the probes leave is what their loop came to know, if it was entered. -/
theorem find_makeProcedureColumnInfoFromDB (probes : ProcedureName → ProbeAnswers Work)
    (autocommitOff autocommitOn : SqlReturn) (hsorted : names.Pairwise (· < ·)) :
    ((makeProcedureColumnInfoFromDB autocommitOff autocommitOn probes names c .empty).1 = true ↔
      sqlIsSuccess autocommitOff = true ∧ (∀ name ∈ names, (probes name).Succeeds) ∧
      sqlIsSuccess autocommitOn = true) ∧
    ∀ name info,
      (makeProcedureColumnInfoFromDB autocommitOff autocommitOn probes names c .empty).2.2.find
          name = some info ↔
        sqlIsSuccess autocommitOff = true ∧ name ∈ names ∧
          (∀ earlier ∈ names, earlier ≤ name → (probes earlier).Succeeds) ∧
          (probe (probes name) c).1 = some info := by
  unfold makeProcedureColumnInfoFromDB
  split
  · rename_i hoff
    refine ⟨iff_of_false (by simp) fun h => ?_,
      fun name info => iff_of_false (by simp [KeyMap.empty]) fun h => ?_⟩
    · rw [h.1] at hoff
      cases hoff
    · rw [h.1] at hoff
      cases hoff
  rename_i hoff
  rw [Bool.not_eq_false] at hoff
  obtain ⟨hflag, hfind⟩ := find_probeLoop (c := c.autocommitOff) probes .empty hsorted
    fun _ _ => rfl
  have hfind' : ∀ name info, (probeLoop probes names c.autocommitOff .empty).2.2.find name =
      some info ↔ sqlIsSuccess autocommitOff = true ∧ name ∈ names ∧
        (∀ earlier ∈ names, earlier ≤ name → (probes earlier).Succeeds) ∧
        (probe (probes name) c).1 = some info := by
    intro name info
    rw [hfind, probe_fst_congr c.autocommitOff c, and_iff_right hoff]
    exact or_iff_right (by simp [KeyMap.empty])
  rw [and_iff_right hoff, ← hflag]
  obtain ⟨ran, c', found, hloop⟩ :
      ∃ ran c' found, probeLoop probes names c.autocommitOff .empty = (ran, c', found) :=
    ⟨_, _, _, rfl⟩
  rw [hloop] at hfind' ⊢
  cases ran with
  | false => exact ⟨by simp, hfind'⟩
  | true =>
    dsimp only
    split
    · rename_i hon
      exact ⟨by simp [hon], hfind'⟩
    · rename_i hon
      exact ⟨by simpa using hon, hfind'⟩

/-- **What is known after InitDB, and what it answers.** -/
theorem find_initDB (answers : InitAnswers Work) (conn : Connection Work) :
    ((initDB answers conn).1 = true ↔ answers.Lists ∧ sqlIsSuccess answers.autocommitOff = true ∧
      (∀ name ∈ answers.names, (answers.probes name).Succeeds) ∧
      sqlIsSuccess answers.autocommitOn = true) ∧
    ∀ name info, (initDB answers conn).2.2.find name = some info ↔ answers.Knows name ∧
      (probe (answers.probes name) conn).1 = some info := by
  obtain ⟨hlists, hnames⟩ := getProcedureNameFromDB_eq answers conn
  unfold initDB
  obtain ⟨succeeded, c, set, hget⟩ : ∃ succeeded c set,
      getProcedureNameFromDB answers conn = (succeeded, c, set) := ⟨_, _, _, rfl⟩
  rw [hget] at hlists hnames ⊢
  cases succeeded with
  | false =>
    have hnot : ¬ answers.Lists := fun h => nomatch hlists.mpr h
    exact ⟨iff_of_false (by simp) fun h => hnot h.1,
      fun name info => iff_of_false (by simp [KeyMap.empty]) fun h => hnot h.1.lists⟩
  | true =>
    have hlists' : answers.Lists := hlists.mp rfl
    have hmem := hnames rfl
    obtain ⟨hflag, hfind⟩ := find_makeProcedureColumnInfoFromDB (c := c) answers.probes
      answers.autocommitOff answers.autocommitOn (List.pairwise_map.mpr set.sorted)
    dsimp only at hmem ⊢
    simp only [hmem] at hflag hfind
    refine ⟨hflag.trans (and_iff_right hlists').symm, fun name info => (hfind name info).trans ?_⟩
    rw [probe_fst_congr c conn]
    exact ⟨fun ⟨hoff, hname, hall, hinfo⟩ => ⟨⟨hlists', hoff, hname, hall⟩, hinfo⟩,
      fun ⟨hknows, hinfo⟩ => ⟨hknows.manual, hknows.mem, hknows.succeeds, hinfo⟩⟩

/-- **What DBServer can call after InitDB**, whatever the driver answers. -/
theorem initialised_initDB (answers : InitAnswers Work) (conn : Connection Work) :
    Initialised answers (initDB answers conn) := by
  obtain ⟨hreturns, hfind⟩ := find_initDB answers conn
  have hdescribes : ∀ name info, getProcedureInfo (initDB answers conn).2.2 name = some info →
      (answers.probes name).Describes info :=
    fun name info h => describes_of_probe ((hfind name info).mp h).2
  refine ⟨hreturns, fun name => ?_, hdescribes, fun sqlBindParameter sqlExecDirect name input args
    text h => ?_⟩
  · rw [Option.isSome_iff_exists]
    refine ⟨fun ⟨info, h⟩ => ((hfind name info).mp h).1, fun h => ?_⟩
    have hsome : (probe (answers.probes name) conn).1.isSome = true :=
      isSome_probe_fst.mpr (h.succeeds name h.mem le_rfl)
    obtain ⟨info, hinfo⟩ := Option.isSome_iff_exists.mp hsome
    exact ⟨info, (hfind name info).mpr ⟨h, hinfo⟩⟩
  · cases hinfo : getProcedureInfo (initDB answers conn).2.2 name with
    | none =>
      rw [hinfo] at h
      cases h
    | some info =>
      rw [hinfo, callSPDirect] at h
      split at h
      · cases h
      · obtain rfl := Option.some.inj h
        obtain ⟨buffer, hbuffer, hcall⟩ := (hdescribes name info hinfo).call
        exact ⟨((hfind name info).mp hinfo).1, buffer, hbuffer, hcall.sql⟩

/-- Three procedures, of which the second in the alphabet cannot be executed: the last is not known,
though it was listed first. -/
def threeProcedures : InitAnswers String where
  stmtHandle := true
  sqlProcedures := .success
  sqlFetch := [⟨.success, .success, "update_c;1"⟩, ⟨.success, .success, "update_a;1"⟩,
    ⟨.success, .success, "update_b;1"⟩, ⟨.noData, .success, ""⟩]
  autocommitOff := .success
  autocommitOn := .success
  probes name := updateAnswers (if name = "update_b" then .error else .success) .success

example : (initDB threeProcedures .opened).1 = false ∧
    ["update_a", "update_b", "update_c"].map
      (fun name => (getProcedureInfo (initDB threeProcedures .opened).2.2 name).isSome) =
        [true, false, false] := by
  decide +kernel

end ODBC

end DdingGameServer
