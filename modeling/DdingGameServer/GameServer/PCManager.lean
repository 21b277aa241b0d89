import DdingGameServer.Common.KeyMap
import DdingGameServer.Common.System
import DdingGameServer.RIOServer.Model
/-!
# PCManager — two indexes of the players

`PCManager` finds a `PC` by the id of its session and by its own id. `InsertPC` enters both maps,
`ErasePCBySessionId` and `ErasePCByPCId` start from one and follow the `PC` to the other. Here the
calls come one after the other; `agreesThroughout_iff` says when the two maps agree after every one
of them: exactly as long as no login finds its PC id taken, because the refused login stays in
`sessionIdToPCMap`. `leavesOthersAlone_iff` says what that costs another player when the refused
session ends.

A session is inserted once, so a `PC` is known by its session.
-/

namespace DdingGameServer

namespace GameServer

open RIOServer (SessionId)

abbrev PCDBID := UInt64

/-- A `PC`: the session it refers to, and its id. -/
structure PC where
  session : SessionId
  pcDBID : PCDBID
  deriving DecidableEq, Repr

/-- **`PCManager`**: its two maps. -/
structure PCManager where
  sessionIdToPCMap : KeyMap SessionId PC
  pcIdToPCMap : KeyMap PCDBID PC

namespace PCManager

/-- The manager before the first call. -/
def empty : PCManager := ⟨.empty, .empty⟩

/-- `InsertPC`, with the sessions it disconnects; `none` where it crashes the process. -/
def insertPC (m : PCManager) (session : SessionId) (id : PCDBID) :
    Option (PCManager × List SessionId) :=
  let pc : PC := ⟨session, id⟩
  match m.sessionIdToPCMap.find session with
  | some _ => none
  | none =>
    let sessionIdToPCMap := m.sessionIdToPCMap.insert session pc
    match m.pcIdToPCMap.find id with
    -- the duplicate and the new session are disconnected; the new entry above stays
    | some duplicatedPC => some ({ m with sessionIdToPCMap }, [duplicatedPC.session, session])
    | none => some ({ sessionIdToPCMap, pcIdToPCMap := m.pcIdToPCMap.insert id pc }, [])

/-- `ErasePCBySessionId`. -/
def erasePCBySessionId (m : PCManager) (sessionId : SessionId) : PCManager :=
  match m.sessionIdToPCMap.find sessionId with
  | none => m
  | some pc =>
    let m := { m with sessionIdToPCMap := m.sessionIdToPCMap.erase sessionId }
    match m.pcIdToPCMap.find pc.pcDBID with
    | none => m
    | some _ => { m with pcIdToPCMap := m.pcIdToPCMap.erase pc.pcDBID }

/-- `ErasePCByPCId`. -/
def erasePCByPCId (m : PCManager) (pcId : PCDBID) : PCManager :=
  match m.pcIdToPCMap.find pcId with
  | none => m
  | some pc =>
    let m := { m with pcIdToPCMap := m.pcIdToPCMap.erase pcId }
    match m.sessionIdToPCMap.find pc.session with
    | none => m
    | some _ => { m with sessionIdToPCMap := m.sessionIdToPCMap.erase pc.session }

/-- `FindPCBySessionId`. -/
def findPCBySessionId (m : PCManager) (sessionId : SessionId) : Option PC :=
  m.sessionIdToPCMap.find sessionId

/-- `FindPCByPCId`. -/
def findPCByPCId (m : PCManager) (pcId : PCDBID) : Option PC :=
  m.pcIdToPCMap.find pcId

end PCManager

/-- A call of the manager. -/
inductive Call
  | insertPC (session : SessionId) (id : PCDBID)
  | erasePCBySessionId (sessionId : SessionId)
  | erasePCByPCId (pcId : PCDBID)
  deriving DecidableEq, Repr

/-- The session a call inserts. -/
def Call.inserted : Call → Option SessionId
  | .insertPC session _ => some session
  | _ => none

/-- What a call does to the maps. -/
def PCManager.call (m : PCManager) : Call → Option PCManager
  | .insertPC session id => (m.insertPC session id).map Prod.fst
  | .erasePCBySessionId sessionId => some (m.erasePCBySessionId sessionId)
  | .erasePCByPCId pcId => some (m.erasePCByPCId pcId)

/-- **The manager**, called from one thread. -/
def sequentialManager : System PCManager Call where
  Init m := m = .empty
  step := PCManager.call

/-- **The two indexes agree**: a `PC` is under its session id in the one exactly where it is under
its PC id in the other. -/
def Agrees (m : PCManager) : Prop :=
  ∀ pc : PC, m.findPCBySessionId pc.session = some pc ↔ m.findPCByPCId pc.pcDBID = some pc

/-- A login finds its PC id free. -/
def FindsIdFree (m : PCManager) : Call → Prop
  | .insertPC _ id => m.findPCByPCId id = none
  | _ => True

instance (m : PCManager) (c : Call) : Decidable (FindsIdFree m c) := by
  cases c <;> (unfold FindsIdFree; infer_instance)

/-! ## What each call does -/

/-- Every `PC` stands under its own ids. -/
structure Keyed (m : PCManager) : Prop where
  session : ∀ sid pc, m.sessionIdToPCMap.find sid = some pc → pc.session = sid
  pcDBID : ∀ id pc, m.pcIdToPCMap.find id = some pc → pc.pcDBID = id

variable {m m' : PCManager} {c : Call} {calls : List Call} {sid sid' : SessionId} {id : PCDBID}
  {pc : PC}

namespace PCManager

/-- A login with a free PC id enters both maps, -/
theorem insertPC_of_free (hs : m.sessionIdToPCMap.find sid = none)
    (hid : m.pcIdToPCMap.find id = none) :
    m.insertPC sid id =
      some (⟨m.sessionIdToPCMap.assign sid ⟨sid, id⟩, m.pcIdToPCMap.assign id ⟨sid, id⟩⟩, []) := by
  simp only [insertPC, hs, hid, KeyMap.insert_of_none]

/-- one with a taken PC id only the first. -/
theorem insertPC_of_taken (hs : m.sessionIdToPCMap.find sid = none)
    (hid : m.pcIdToPCMap.find id = some pc) :
    m.insertPC sid id =
      some ({ m with sessionIdToPCMap := m.sessionIdToPCMap.assign sid ⟨sid, id⟩ },
        [pc.session, sid]) := by
  simp only [insertPC, hs, hid, KeyMap.insert_of_none]

theorem insertPC_of_inserted (hs : m.sessionIdToPCMap.find sid = some pc) :
    m.insertPC sid id = none := by
  simp only [insertPC, hs]

theorem erasePCBySessionId_of_none (hs : m.sessionIdToPCMap.find sid = none) :
    m.erasePCBySessionId sid = m := by
  simp only [erasePCBySessionId, hs]

/-- An erase by session id forgets the `PC` in both maps, -/
theorem erasePCBySessionId_of_some (hs : m.sessionIdToPCMap.find sid = some pc) :
    m.erasePCBySessionId sid =
      ⟨m.sessionIdToPCMap.erase sid, m.pcIdToPCMap.erase pc.pcDBID⟩ := by
  simp only [erasePCBySessionId, hs]
  cases hid : m.pcIdToPCMap.find pc.pcDBID with
  | none => rw [KeyMap.erase_of_none hid]
  | some pc' => rfl

theorem erasePCByPCId_of_none (hid : m.pcIdToPCMap.find id = none) :
    m.erasePCByPCId id = m := by
  simp only [erasePCByPCId, hid]

/-- and so does one by PC id. -/
theorem erasePCByPCId_of_some (hid : m.pcIdToPCMap.find id = some pc) :
    m.erasePCByPCId id =
      ⟨m.sessionIdToPCMap.erase pc.session, m.pcIdToPCMap.erase id⟩ := by
  simp only [erasePCByPCId, hid]
  cases hs : m.sessionIdToPCMap.find pc.session with
  | none => rw [KeyMap.erase_of_none hs]
  | some pc' => rfl

end PCManager

/-- **What a call can do**: a login is refused or entered, an erase finds nothing or forgets one
`PC`. -/
inductive Does (m : PCManager) : Call → PCManager → Prop
  | refused {sid : SessionId} {id : PCDBID} {pc : PC} (hs : m.sessionIdToPCMap.find sid = none)
      (hid : m.pcIdToPCMap.find id = some pc) :
      Does m (.insertPC sid id)
        { m with sessionIdToPCMap := m.sessionIdToPCMap.assign sid ⟨sid, id⟩ }
  | entered {sid : SessionId} {id : PCDBID} (hs : m.sessionIdToPCMap.find sid = none)
      (hid : m.pcIdToPCMap.find id = none) :
      Does m (.insertPC sid id)
        ⟨m.sessionIdToPCMap.assign sid ⟨sid, id⟩, m.pcIdToPCMap.assign id ⟨sid, id⟩⟩
  | noSession {sid : SessionId} (hs : m.sessionIdToPCMap.find sid = none) :
      Does m (.erasePCBySessionId sid) m
  | erasedSession {sid : SessionId} {pc : PC} (hs : m.sessionIdToPCMap.find sid = some pc) :
      Does m (.erasePCBySessionId sid)
        ⟨m.sessionIdToPCMap.erase sid, m.pcIdToPCMap.erase pc.pcDBID⟩
  | noPC {id : PCDBID} (hid : m.pcIdToPCMap.find id = none) : Does m (.erasePCByPCId id) m
  | erasedPC {id : PCDBID} {pc : PC} (hid : m.pcIdToPCMap.find id = some pc) :
      Does m (.erasePCByPCId id)
        ⟨m.sessionIdToPCMap.erase pc.session, m.pcIdToPCMap.erase id⟩

/-- A call that does not crash does one of these, -/
theorem does_of_call (hc : m.call c = some m') : Does m c m' := by
  cases c with
  | insertPC session id =>
    obtain ⟨r, hr, rfl⟩ := Option.map_eq_some_iff.mp hc
    cases hs : m.sessionIdToPCMap.find session with
    | some pc => rw [PCManager.insertPC_of_inserted hs] at hr; cases hr
    | none =>
      cases hid : m.pcIdToPCMap.find id with
      | some pc =>
        rw [PCManager.insertPC_of_taken hs hid] at hr
        cases hr
        exact .refused hs hid
      | none =>
        rw [PCManager.insertPC_of_free hs hid] at hr
        cases hr
        exact .entered hs hid
  | erasePCBySessionId sessionId =>
    obtain rfl := Option.some.inj hc
    cases hs : m.sessionIdToPCMap.find sessionId with
    | none => rw [PCManager.erasePCBySessionId_of_none hs]; exact .noSession hs
    | some pc => rw [PCManager.erasePCBySessionId_of_some hs]; exact .erasedSession hs
  | erasePCByPCId pcId =>
    obtain rfl := Option.some.inj hc
    cases hid : m.pcIdToPCMap.find pcId with
    | none => rw [PCManager.erasePCByPCId_of_none hid]; exact .noPC hid
    | some pc => rw [PCManager.erasePCByPCId_of_some hid]; exact .erasedPC hid

/-- and only a login of a session that is in crashes. -/
theorem exists_call (h : ∀ sid ∈ c.inserted, m.sessionIdToPCMap.find sid = none) :
    ∃ m', m.call c = some m' := by
  cases c with
  | insertPC session id =>
    have hs : m.sessionIdToPCMap.find session = none := h session rfl
    cases hid : m.pcIdToPCMap.find id with
    | some pc => exact ⟨_, by rw [PCManager.call, PCManager.insertPC_of_taken hs hid]; rfl⟩
    | none => exact ⟨_, by rw [PCManager.call, PCManager.insertPC_of_free hs hid]; rfl⟩
  | erasePCBySessionId sessionId => exact ⟨_, rfl⟩
  | erasePCByPCId pcId => exact ⟨_, rfl⟩

theorem Keyed.empty : Keyed .empty := by
  constructor <;> intro _ _ h <;> cases h

/-- Entries made under their own ids keep the maps keyed, -/
theorem Keyed.assignSession (h : Keyed m) :
    Keyed { m with sessionIdToPCMap := m.sessionIdToPCMap.assign sid ⟨sid, id⟩ } := by
  refine ⟨fun s pc hs => ?_, h.pcDBID⟩
  rcases KeyMap.find_assign_eq_some.mp hs with ⟨rfl, rfl⟩ | ⟨-, hs⟩
  · rfl
  · exact h.session s pc hs

theorem Keyed.assignPCId (h : Keyed m) :
    Keyed { m with pcIdToPCMap := m.pcIdToPCMap.assign id ⟨sid, id⟩ } := by
  refine ⟨h.session, fun i pc hi => ?_⟩
  rcases KeyMap.find_assign_eq_some.mp hi with ⟨rfl, rfl⟩ | ⟨-, hi⟩
  · rfl
  · exact h.pcDBID i pc hi

/-- and so does forgetting some. -/
theorem Keyed.eraseSession (h : Keyed m) (sid : SessionId) :
    Keyed { m with sessionIdToPCMap := m.sessionIdToPCMap.erase sid } :=
  ⟨fun s pc hs => h.session s pc (KeyMap.find_of_find_erase hs), h.pcDBID⟩

theorem Keyed.erasePCId (h : Keyed m) (id : PCDBID) :
    Keyed { m with pcIdToPCMap := m.pcIdToPCMap.erase id } :=
  ⟨h.session, fun i pc hi => h.pcDBID i pc (KeyMap.find_of_find_erase hi)⟩

/-- **Every call keeps the maps keyed.** -/
theorem Keyed.call (h : Keyed m) (hc : m.call c = some m') : Keyed m' := by
  cases does_of_call hc with
  | refused hs hid => exact h.assignSession
  | entered hs hid => exact h.assignSession.assignPCId
  | noSession hs => exact h
  | erasedSession hs => exact (h.eraseSession _).erasePCId _
  | noPC hid => exact h
  | erasedPC hid => exact (h.eraseSession _).erasePCId _

/-! ## Agreement -/

theorem Agrees.empty : Agrees .empty := by
  intro pc
  constructor <;> intro h <;> cases h

/-- A `PC` new to both maps. -/
theorem Agrees.assign (h : Agrees m) (hs : m.sessionIdToPCMap.find sid = none)
    (hid : m.pcIdToPCMap.find id = none) :
    Agrees ⟨m.sessionIdToPCMap.assign sid ⟨sid, id⟩, m.pcIdToPCMap.assign id ⟨sid, id⟩⟩ := by
  intro pc
  simp only [PCManager.findPCBySessionId, PCManager.findPCByPCId, KeyMap.find_assign_eq_some]
  have hpc := h pc
  unfold PCManager.findPCBySessionId PCManager.findPCByPCId at hpc
  constructor
  · rintro (⟨-, rfl⟩ | ⟨hne, hf⟩)
    · exact .inl ⟨rfl, rfl⟩
    · have hf' := hpc.mp hf
      refine .inr ⟨fun heq => ?_, hf'⟩
      rw [heq, hid] at hf'
      cases hf'
  · rintro (⟨-, rfl⟩ | ⟨hne, hf⟩)
    · exact .inl ⟨rfl, rfl⟩
    · have hf' := hpc.mpr hf
      refine .inr ⟨fun heq => ?_, hf'⟩
      rw [heq, hs] at hf'
      cases hf'

/-- A `PC` forgotten in both. -/
theorem Agrees.erase (h : Agrees m) (hs : m.findPCBySessionId pc.session = some pc) :
    Agrees ⟨m.sessionIdToPCMap.erase pc.session, m.pcIdToPCMap.erase pc.pcDBID⟩ := by
  have hid := (h pc).mp hs
  intro pc'
  have hpc' := h pc'
  simp only [PCManager.findPCBySessionId, PCManager.findPCByPCId,
    KeyMap.find_erase_eq_some] at hs hid hpc' ⊢
  constructor
  · rintro ⟨hne, hf⟩
    have hf' := hpc'.mp hf
    refine ⟨fun heq => hne ?_, hf'⟩
    rw [heq, hid] at hf'
    rw [Option.some.inj hf']
  · rintro ⟨hne, hf⟩
    have hf' := hpc'.mpr hf
    refine ⟨fun heq => hne ?_, hf'⟩
    rw [heq, hs] at hf'
    rw [Option.some.inj hf']

/-- A refused login stands in one map only. -/
theorem not_agrees_of_taken (hid : m.pcIdToPCMap.find id = some pc) (hne : pc ≠ ⟨sid, id⟩) :
    ¬ Agrees { m with sessionIdToPCMap := m.sessionIdToPCMap.assign sid ⟨sid, id⟩ } := by
  intro h
  have hf : m.pcIdToPCMap.find id = some ⟨sid, id⟩ := (h ⟨sid, id⟩).mp KeyMap.find_assign_self
  rw [hid] at hf
  exact hne (Option.some.inj hf)

/-- **A call keeps the agreement exactly where it is no login, or finds its PC id free.** -/
theorem agrees_call_iff (hk : Keyed m) (h : Agrees m) (hc : m.call c = some m') :
    Agrees m' ↔ FindsIdFree m c := by
  cases does_of_call hc with
  | @refused session id pc hs hid =>
    have hne : pc ≠ ⟨session, id⟩ := by
      rintro rfl
      have hs' : m.sessionIdToPCMap.find session = some ⟨session, id⟩ :=
        (h ⟨session, id⟩).mpr hid
      rw [hs] at hs'
      cases hs'
    refine iff_of_false (not_agrees_of_taken hid hne) fun hfree => ?_
    cases hid.symm.trans hfree
  | entered hs hid => exact iff_of_true (h.assign hs hid) hid
  | noSession hs => exact iff_of_true h trivial
  | erasedSession hs =>
    obtain rfl := hk.session _ _ hs
    exact iff_of_true (h.erase hs) trivial
  | noPC hid => exact iff_of_true h trivial
  | @erasedPC id pc hid =>
    obtain rfl := hk.pcDBID _ _ hid
    exact iff_of_true (h.erase ((h pc).mpr hid)) trivial

/-! ## Whole runs -/

/-- A call fills no session but the one it inserts. -/
theorem find_none_call (hc : m.call c = some m') (hs : m.sessionIdToPCMap.find sid = none)
    (hne : sid ∉ c.inserted) : m'.sessionIdToPCMap.find sid = none := by
  have hother : ∀ session id, c = .insertPC session id → sid ≠ session := by
    rintro session id rfl rfl
    exact hne rfl
  cases does_of_call hc with
  | refused hs' hid => exact (KeyMap.find_assign_of_ne (hother _ _ rfl)).trans hs
  | entered hs' hid => exact (KeyMap.find_assign_of_ne (hother _ _ rfl)).trans hs
  | noSession hs' => exact hs
  | erasedSession hs' => exact KeyMap.find_erase_of_none hs
  | noPC hid => exact hs
  | erasedPC hid => exact KeyMap.find_erase_of_none hs

/-- **Calls that insert no session twice never crash.** -/
theorem exists_run_of_nodup (hnodup : (calls.filterMap Call.inserted).Nodup)
    (hnew : ∀ sid ∈ calls.filterMap Call.inserted, m.sessionIdToPCMap.find sid = none) :
    ∃ m', sequentialManager.run m calls = some m' := by
  induction calls generalizing m with
  | nil => exact ⟨m, rfl⟩
  | cons c calls ih =>
    obtain ⟨m₁, hm₁⟩ := exists_call fun sid hsid =>
      hnew sid (List.mem_filterMap.mpr ⟨c, List.mem_cons_self .., hsid⟩)
    have hrest : ∃ m', sequentialManager.run m₁ calls = some m' := by
      cases hins : c.inserted with
      | none =>
        rw [List.filterMap_cons_none hins] at hnodup hnew
        exact ih hnodup fun sid hsid =>
          find_none_call hm₁ (hnew sid hsid) (by rw [hins]; exact Option.not_mem_none sid)
      | some session =>
        rw [List.filterMap_cons_some hins] at hnodup hnew
        obtain ⟨hnotMem, hnodup⟩ := List.nodup_cons.mp hnodup
        refine ih hnodup fun sid hsid =>
          find_none_call hm₁ (hnew sid (List.mem_cons_of_mem _ hsid)) fun hmem => hnotMem ?_
        rw [hins] at hmem
        rwa [Option.mem_some_iff.mp hmem]
    obtain ⟨m', hm'⟩ := hrest
    exact ⟨m', System.run_cons_eq_some.mpr ⟨m₁, hm₁, hm'⟩⟩

/-- **The two indexes agree after every call exactly as long as logins find their PC ids free**,
for every sequence of calls that inserts no session twice; none of them crashes. -/
theorem agreesThroughout_iff (hnodup : (calls.filterMap Call.inserted).Nodup) :
    (∃ m, sequentialManager.run .empty calls = some m) ∧
      (sequentialManager.Throughout Agrees .empty calls ↔
        sequentialManager.Meets FindsIdFree .empty calls) := by
  obtain ⟨m, hm⟩ := exists_run_of_nodup hnodup (m := .empty) fun _ _ => rfl
  exact ⟨⟨m, hm⟩, System.throughout_iff_meets (fun _ _ _ hk hs => hk.call hs)
    (fun _ _ _ hk ha hs => agrees_call_iff hk ha hs) hm .empty .empty⟩

/-- Two logins with different PC ids, and erases of both kinds. -/
theorem agreesThroughout_two :
    ([Call.insertPC 2 7, .insertPC 3 8, .erasePCBySessionId 2, .erasePCByPCId 8].filterMap
        Call.inserted).Nodup ∧
      sequentialManager.Throughout Agrees .empty
        [.insertPC 2 7, .insertPC 3 8, .erasePCBySessionId 2, .erasePCByPCId 8] := by
  have hnodup : ([Call.insertPC 2 7, .insertPC 3 8, .erasePCBySessionId 2,
      .erasePCByPCId 8].filterMap Call.inserted).Nodup := by decide
  refine ⟨hnodup, (agreesThroughout_iff hnodup).2.mpr ⟨rfl, ?_⟩⟩
  rintro m₁ h₁
  obtain rfl := Option.some.inj h₁
  refine ⟨rfl, ?_⟩
  rintro m₂ h₂
  obtain rfl := Option.some.inj h₂
  exact ⟨trivial, fun _ _ => ⟨trivial, fun _ _ => trivial⟩⟩

/-- **A player who is logged in logs in again, from another session.** The refused `PC` is found by
its session and not by its id. -/
theorem not_agrees_duplicate :
    ([Call.insertPC 2 7, .insertPC 3 7].filterMap Call.inserted).Nodup ∧
      ∃ m, sequentialManager.run .empty [.insertPC 2 7, .insertPC 3 7] = some m ∧ ¬ Agrees m := by
  refine ⟨by decide, _, rfl, fun h => ?_⟩
  have hf := (h ⟨3, 7⟩).mp (by decide)
  exact absurd hf (by decide)

/-! ## One session's end -/

/-- **The other players are left alone** by `ErasePCBySessionId`: what is found by another session's
id stays, and so does what is found by a PC id and belongs to another session. -/
structure LeavesOthersAlone (m : PCManager) (sessionId : SessionId) : Prop where
  bySession : ∀ sid ≠ sessionId,
    (m.erasePCBySessionId sessionId).findPCBySessionId sid = m.findPCBySessionId sid
  byPCId : ∀ id pc, m.findPCByPCId id = some pc → pc.session ≠ sessionId →
    (m.erasePCBySessionId sessionId).findPCByPCId id = some pc

/-- Whatever is found under the PC id of a session's `PC` is that session's own. -/
def OwnsItsId (m : PCManager) (sessionId : SessionId) : Prop :=
  ∀ pc, m.findPCBySessionId sessionId = some pc →
    ∀ pc', m.findPCByPCId pc.pcDBID = some pc' → pc'.session = sessionId

/-- A session is found by its id until it ends, whoever else does. -/
theorem findPCBySessionId_erase_of_ne (hne : sid ≠ sid') :
    (m.erasePCBySessionId sid').findPCBySessionId sid = m.findPCBySessionId sid := by
  unfold PCManager.findPCBySessionId
  cases hs : m.sessionIdToPCMap.find sid' with
  | none => rw [PCManager.erasePCBySessionId_of_none hs]
  | some pc =>
    rw [PCManager.erasePCBySessionId_of_some hs]
    exact KeyMap.find_erase_of_ne hne

/-- **A session's end leaves the others alone exactly where its PC id is not another's.** -/
theorem leavesOthersAlone_iff : LeavesOthersAlone m sid ↔ OwnsItsId m sid := by
  constructor
  · intro h pc hs pc' hid
    by_contra hother
    -- the entry of the other session is the one that is erased
    have hstays := h.byPCId pc.pcDBID pc' hid hother
    rw [PCManager.erasePCBySessionId_of_some hs, PCManager.findPCByPCId,
      KeyMap.find_erase_self] at hstays
    cases hstays
  · intro h
    refine ⟨fun sid' hne => findPCBySessionId_erase_of_ne hne, fun id pc hid hother => ?_⟩
    cases hs : m.sessionIdToPCMap.find sid with
    | none => rwa [PCManager.erasePCBySessionId_of_none hs]
    | some ended =>
      have hne : id ≠ ended.pcDBID := by
        rintro rfl
        exact hother (h ended hs pc hid)
      rw [PCManager.erasePCBySessionId_of_some hs]
      exact (KeyMap.find_erase_of_ne hne).trans hid

/-- Maps that agree give every session its own PC id. -/
theorem Agrees.ownsItsId (h : Agrees m) (hk : Keyed m) (sid : SessionId) : OwnsItsId m sid := by
  intro pc hs pc' hid
  have hsession : pc.session = sid := hk.session sid pc hs
  have hown : m.findPCByPCId pc.pcDBID = some pc := (h pc).mp (hsession ▸ hs)
  obtain rfl : pc = pc' := Option.some.inj (hown.symm.trans hid)
  exact hsession

/-- The maps are keyed and agree in every state that logins with free PC ids lead to. -/
theorem keyed_and_agrees (h : sequentialManager.ReachableUnder FindsIdFree m) :
    Keyed m ∧ Agrees m := by
  refine h.invariant (P := fun m => Keyed m ∧ Agrees m) (fun m hinit => ?_)
    fun m c m' hm hfree hc => ?_
  · obtain rfl := hinit
    exact ⟨.empty, .empty⟩
  · exact ⟨hm.1.call hc, (agrees_call_iff hm.1 hm.2 hc).mpr hfree⟩

/-- **Ending one session does not touch other players** exactly where the entry under its PC id is
its own, and so in every state reached by logins that found their PC ids free. -/
theorem erasePCBySessionId_leaves_others (m : PCManager) (sid : SessionId) :
    (LeavesOthersAlone m sid ↔ OwnsItsId m sid) ∧
      (sequentialManager.ReachableUnder FindsIdFree m → LeavesOthersAlone m sid) := by
  refine ⟨leavesOthersAlone_iff, fun hm => leavesOthersAlone_iff.mpr ?_⟩
  obtain ⟨hk, hagrees⟩ := keyed_and_agrees hm
  exact hagrees.ownsItsId hk sid

/-- Two players are online and one of them leaves. -/
theorem erasePCBySessionId_leaves_others_two :
    ∃ m, sequentialManager.run .empty [.insertPC 2 7, .insertPC 3 8] = some m ∧
      m.findPCByPCId 7 = some ⟨2, 7⟩ ∧ LeavesOthersAlone m 3 := by
  refine ⟨_, rfl, by decide, (erasePCBySessionId_leaves_others _ 3).2 ?_⟩
  refine .step (e := .insertPC 3 8) (.step (e := .insertPC 2 7) (.init rfl) ?_ rfl) ?_ rfl <;>
    exact rfl

/-- **The refused login ends, and takes the player who was there with it.** -/
theorem not_leavesOthersAlone_duplicate :
    ∃ m, sequentialManager.Reachable m ∧ ¬ LeavesOthersAlone m 3 := by
  have hrun : sequentialManager.run .empty [.insertPC 2 7, .insertPC 3 7] = some _ := rfl
  refine ⟨_, System.reachable_of_run rfl hrun, fun h => ?_⟩
  have hstays := h.byPCId 7 ⟨2, 7⟩ (by decide) (by decide)
  exact absurd hstays (by decide)

end GameServer

end DdingGameServer
