import DdingGameServer.Common.Tally
import DdingGameServer.GameServer.PCManager
/-!
# PCManager — calls that interleave

`sessionIdToPCMapLock` and `pcIdToPCMapLock` are taken one after the other, never together: a call
is two sections, and between them any other call may run. `Position` says which section a call is
before; a call that runs alone does what `PCManager.call` does (`run_call`).

An erase by session id that finds the `PC` of a login between its two sections takes it from the
first map, and if it also looks into the second map before the login does, the login enters a `PC`
there that no session leads to any more. Under `erasesEntered` this does not happen, and then the
two maps agree whenever no call is in progress.
-/

namespace DdingGameServer

namespace GameServer

open RIOServer (SessionId)

/-- Where a call stands: before one of its sections, or returned. -/
inductive Position
  -- `InsertPC`, which is told apart by its `PC` also when it has returned
  | insertBySessionId (pc : PC)
  | insertByPCId (pc : PC)
  | inserted (pc : PC)
  -- `ErasePCBySessionId`
  | takeBySessionId (sessionId : SessionId)
  | eraseByPCId (pcId : PCDBID)
  -- `ErasePCByPCId`
  | takeByPCId (pcId : PCDBID)
  | eraseBySessionId (sessionId : SessionId)
  | erased
  deriving DecidableEq, Repr

/-- The position before a call's first section. -/
def Call.start : Call → Position
  | .insertPC session id => .insertBySessionId ⟨session, id⟩
  | .erasePCBySessionId sessionId => .takeBySessionId sessionId
  | .erasePCByPCId pcId => .takeByPCId pcId

/-- The `PC` an `InsertPC` enters. -/
def Position.inserts : Position → Option PC
  | .insertBySessionId pc | .insertByPCId pc | .inserted pc => some pc
  | _ => none

/-- The call has returned. -/
def Position.returned : Position → Bool
  | .inserted _ | .erased => true
  | _ => false

/-- **One section of a call**: the maps after it and where it leaves the call. `none` where the
process crashes, and where the call has returned. -/
def PCManager.advance (m : PCManager) : Position → Option (PCManager × Position)
  | .insertBySessionId pc =>
    match m.sessionIdToPCMap.find pc.session with
    | some _ => none
    | none =>
      some ({ m with sessionIdToPCMap := m.sessionIdToPCMap.insert pc.session pc },
        .insertByPCId pc)
  | .insertByPCId pc =>
    match m.pcIdToPCMap.find pc.pcDBID with
    | some _ => some (m, .inserted pc)
    | none =>
      some ({ m with pcIdToPCMap := m.pcIdToPCMap.insert pc.pcDBID pc }, .inserted pc)
  | .takeBySessionId sessionId =>
    match m.sessionIdToPCMap.find sessionId with
    | none => some (m, .erased)
    | some pc =>
      some ({ m with sessionIdToPCMap := m.sessionIdToPCMap.erase sessionId },
        .eraseByPCId pc.pcDBID)
  | .eraseByPCId pcId =>
    match m.pcIdToPCMap.find pcId with
    | none => some (m, .erased)
    | some _ => some ({ m with pcIdToPCMap := m.pcIdToPCMap.erase pcId }, .erased)
  | .takeByPCId pcId =>
    match m.pcIdToPCMap.find pcId with
    | none => some (m, .erased)
    | some pc =>
      some ({ m with pcIdToPCMap := m.pcIdToPCMap.erase pcId }, .eraseBySessionId pc.session)
  | .eraseBySessionId sessionId =>
    match m.sessionIdToPCMap.find sessionId with
    | none => some (m, .erased)
    | some _ => some ({ m with sessionIdToPCMap := m.sessionIdToPCMap.erase sessionId }, .erased)
  | .inserted _ => none
  | .erased => none

/-- The manager and the calls made of it, on any threads. -/
structure ManagerState where
  manager : PCManager
  calls : List Position

/-- A new call, or the next section of the `i`-th one. -/
inductive ManagerEvent
  | call (c : Call)
  | advance (i : ℕ)
  deriving DecidableEq, Repr

def ManagerState.step (s : ManagerState) : ManagerEvent → Option ManagerState
  | .call c => some { s with calls := s.calls ++ [c.start] }
  | .advance i =>
    s.calls[i]?.bind fun p =>
      (s.manager.advance p).map fun (manager, q) => ⟨manager, s.calls.set i q⟩

/-- **The manager**, called from any number of threads. -/
def concurrentManager : System ManagerState ManagerEvent where
  Init s := s = ⟨.empty, []⟩
  step := ManagerState.step

/-- A login brings a session and a PC id that no login brought before. -/
def logsInFresh (s : ManagerState) : ManagerEvent → Bool
  | .call (.insertPC session id) =>
    s.calls.all fun p => p.inserts.all fun pc => pc.session ≠ session ∧ pc.pcDBID ≠ id
  | _ => true

/-- The second section of `ErasePCBySessionId` runs while no `InsertPC` of the same PC id is between
its two sections. -/
def erasesEntered (s : ManagerState) : ManagerEvent → Bool
  | .advance i =>
    match s.calls[i]? with
    | some (.eraseByPCId pcId) => s.calls.all fun p =>
      match p with
      | .insertByPCId pc => pc.pcDBID ≠ pcId
      | _ => true
    | _ => true
  | _ => true

/-- No call is in progress. -/
def ManagerState.Quiet (s : ManagerState) : Prop := ∀ p ∈ s.calls, p.returned = true

variable {m m' : PCManager} {s s' : ManagerState} {c : Call} {p q : Position} {pc pc' : PC}
  {sid : SessionId} {id : PCDBID} {i j : ℕ} {e : ManagerEvent} {calls : List Position}

/-! ## One section -/

/-- **What one section does.** -/
inductive Advanced (m : PCManager) : Position → PCManager → Position → Prop
  | enteredSession {pc : PC} : m.sessionIdToPCMap.find pc.session = none →
      Advanced m (.insertBySessionId pc)
        { m with sessionIdToPCMap := m.sessionIdToPCMap.assign pc.session pc } (.insertByPCId pc)
  | enteredId {pc : PC} : m.pcIdToPCMap.find pc.pcDBID = none →
      Advanced m (.insertByPCId pc)
        { m with pcIdToPCMap := m.pcIdToPCMap.assign pc.pcDBID pc } (.inserted pc)
  | refused {pc old : PC} : m.pcIdToPCMap.find pc.pcDBID = some old →
      Advanced m (.insertByPCId pc) m (.inserted pc)
  | tookSession {sid : SessionId} {pc : PC} : m.sessionIdToPCMap.find sid = some pc →
      Advanced m (.takeBySessionId sid)
        { m with sessionIdToPCMap := m.sessionIdToPCMap.erase sid } (.eraseByPCId pc.pcDBID)
  | noSession {sid : SessionId} : m.sessionIdToPCMap.find sid = none →
      Advanced m (.takeBySessionId sid) m .erased
  | erasedId (id : PCDBID) :
      Advanced m (.eraseByPCId id) { m with pcIdToPCMap := m.pcIdToPCMap.erase id } .erased
  | tookId {id : PCDBID} {pc : PC} : m.pcIdToPCMap.find id = some pc →
      Advanced m (.takeByPCId id)
        { m with pcIdToPCMap := m.pcIdToPCMap.erase id } (.eraseBySessionId pc.session)
  | noId {id : PCDBID} : m.pcIdToPCMap.find id = none → Advanced m (.takeByPCId id) m .erased
  | erasedSession (sid : SessionId) :
      Advanced m (.eraseBySessionId sid)
        { m with sessionIdToPCMap := m.sessionIdToPCMap.erase sid } .erased

theorem advanced (h : m.advance p = some (m', q)) : Advanced m p m' q := by
  cases p with
  | insertBySessionId pc =>
    cases hs : m.sessionIdToPCMap.find pc.session with
    | some old => simp [PCManager.advance, hs] at h
    | none =>
      simp only [PCManager.advance, hs, KeyMap.insert_of_none, Option.some.injEq,
        Prod.mk.injEq] at h
      obtain ⟨rfl, rfl⟩ := h
      exact .enteredSession hs
  | insertByPCId pc =>
    cases hid : m.pcIdToPCMap.find pc.pcDBID with
    | some old =>
      simp only [PCManager.advance, hid, Option.some.injEq, Prod.mk.injEq] at h
      obtain ⟨rfl, rfl⟩ := h
      exact .refused hid
    | none =>
      simp only [PCManager.advance, hid, KeyMap.insert_of_none, Option.some.injEq,
        Prod.mk.injEq] at h
      obtain ⟨rfl, rfl⟩ := h
      exact .enteredId hid
  | inserted pc => cases h
  | takeBySessionId sid =>
    cases hs : m.sessionIdToPCMap.find sid with
    | some pc =>
      simp only [PCManager.advance, hs, Option.some.injEq, Prod.mk.injEq] at h
      obtain ⟨rfl, rfl⟩ := h
      exact .tookSession hs
    | none =>
      simp only [PCManager.advance, hs, Option.some.injEq, Prod.mk.injEq] at h
      obtain ⟨rfl, rfl⟩ := h
      exact .noSession hs
  | eraseByPCId id =>
    have herased := Advanced.erasedId (m := m) id
    cases hid : m.pcIdToPCMap.find id with
    | some pc =>
      simp only [PCManager.advance, hid, Option.some.injEq, Prod.mk.injEq] at h
      obtain ⟨rfl, rfl⟩ := h
      exact herased
    | none =>
      simp only [PCManager.advance, hid, Option.some.injEq, Prod.mk.injEq] at h
      obtain ⟨rfl, rfl⟩ := h
      rwa [KeyMap.erase_of_none hid] at herased
  | takeByPCId id =>
    cases hid : m.pcIdToPCMap.find id with
    | some pc =>
      simp only [PCManager.advance, hid, Option.some.injEq, Prod.mk.injEq] at h
      obtain ⟨rfl, rfl⟩ := h
      exact .tookId hid
    | none =>
      simp only [PCManager.advance, hid, Option.some.injEq, Prod.mk.injEq] at h
      obtain ⟨rfl, rfl⟩ := h
      exact .noId hid
  | eraseBySessionId sid =>
    have herased := Advanced.erasedSession (m := m) sid
    cases hs : m.sessionIdToPCMap.find sid with
    | some pc =>
      simp only [PCManager.advance, hs, Option.some.injEq, Prod.mk.injEq] at h
      obtain ⟨rfl, rfl⟩ := h
      exact herased
    | none =>
      simp only [PCManager.advance, hs, Option.some.injEq, Prod.mk.injEq] at h
      obtain ⟨rfl, rfl⟩ := h
      rwa [KeyMap.erase_of_none hs] at herased
  | erased => cases h

/-- The next section of the last call. -/
theorem run_advance_last {es : List ManagerEvent} (h : m.advance p = some (m', q)) :
    concurrentManager.run ⟨m, calls ++ [p]⟩ (.advance calls.length :: es) =
      concurrentManager.run ⟨m', calls ++ [q]⟩ es := by
  have hstep : concurrentManager.step ⟨m, calls ++ [p]⟩ (.advance calls.length) =
      some ⟨m', calls ++ [q]⟩ := by
    simp [concurrentManager, ManagerState.step, h]
  rw [System.run_cons, hstep]
  rfl

/-- **A call whose sections no other call comes between** does to the maps what the function
does. -/
theorem run_call (h : m.call c = some m') :
    ∃ n q, q.returned = true ∧
      concurrentManager.run ⟨m, calls⟩ (.call c :: List.replicate n (.advance calls.length)) =
        some ⟨m', calls ++ [q]⟩ := by
  cases c with
  | insertPC session id =>
    obtain ⟨r, hr, rfl⟩ := Option.map_eq_some_iff.mp h
    cases hs : m.sessionIdToPCMap.find session with
    | some pc => rw [PCManager.insertPC_of_inserted hs] at hr; cases hr
    | none =>
      have hfirst : m.advance (.insertBySessionId ⟨session, id⟩) =
          some ({ m with sessionIdToPCMap := m.sessionIdToPCMap.assign session ⟨session, id⟩ },
            .insertByPCId ⟨session, id⟩) := by
        simp only [PCManager.advance, hs, KeyMap.insert_of_none]
      cases hid : m.pcIdToPCMap.find id with
      | some pc =>
        rw [PCManager.insertPC_of_taken hs hid] at hr
        cases hr
        refine ⟨2, .inserted ⟨session, id⟩, rfl, (run_advance_last hfirst).trans ?_⟩
        refine (run_advance_last (q := .inserted ⟨session, id⟩) ?_).trans rfl
        simp only [PCManager.advance, hid]
      | none =>
        rw [PCManager.insertPC_of_free hs hid] at hr
        cases hr
        refine ⟨2, .inserted ⟨session, id⟩, rfl, (run_advance_last hfirst).trans ?_⟩
        refine (run_advance_last (q := .inserted ⟨session, id⟩) ?_).trans rfl
        simp only [PCManager.advance, hid, KeyMap.insert_of_none]
  | erasePCBySessionId sessionId =>
    obtain rfl := Option.some.inj h
    cases hs : m.sessionIdToPCMap.find sessionId with
    | none =>
      have hfirst : m.advance (.takeBySessionId sessionId) = some (m, .erased) := by
        simp only [PCManager.advance, hs]
      rw [PCManager.erasePCBySessionId_of_none hs]
      exact ⟨1, .erased, rfl, (run_advance_last hfirst).trans rfl⟩
    | some pc =>
      have hfirst : m.advance (.takeBySessionId sessionId) =
          some ({ m with sessionIdToPCMap := m.sessionIdToPCMap.erase sessionId },
            .eraseByPCId pc.pcDBID) := by
        simp only [PCManager.advance, hs]
      rw [PCManager.erasePCBySessionId_of_some hs]
      refine ⟨2, .erased, rfl, (run_advance_last hfirst).trans ?_⟩
      refine (run_advance_last (q := .erased) ?_).trans rfl
      cases hid : m.pcIdToPCMap.find pc.pcDBID with
      | none => simp only [PCManager.advance, hid, KeyMap.erase_of_none]
      | some pc' => simp only [PCManager.advance, hid]
  | erasePCByPCId pcId =>
    obtain rfl := Option.some.inj h
    cases hid : m.pcIdToPCMap.find pcId with
    | none =>
      have hfirst : m.advance (.takeByPCId pcId) = some (m, .erased) := by
        simp only [PCManager.advance, hid]
      rw [PCManager.erasePCByPCId_of_none hid]
      exact ⟨1, .erased, rfl, (run_advance_last hfirst).trans rfl⟩
    | some pc =>
      have hfirst : m.advance (.takeByPCId pcId) =
          some ({ m with pcIdToPCMap := m.pcIdToPCMap.erase pcId },
            .eraseBySessionId pc.session) := by
        simp only [PCManager.advance, hid]
      rw [PCManager.erasePCByPCId_of_some hid]
      refine ⟨2, .erased, rfl, (run_advance_last hfirst).trans ?_⟩
      refine (run_advance_last (q := .erased) ?_).trans rfl
      cases hs : m.sessionIdToPCMap.find pc.session with
      | none => simp only [PCManager.advance, hs, KeyMap.erase_of_none]
      | some pc' => simp only [PCManager.advance, hs]

/-! ## The life of a `PC` -/

/-- The first section of the `PC`'s login is behind it. -/
def Begun (calls : List Position) (pc : PC) : Prop :=
  .insertByPCId pc ∈ calls ∨ .inserted pc ∈ calls

/-- **Where a `PC` can be.** One that is in one map only is on its way: into the second map by its
login, or out of it by an erase that has taken it from the first. -/
structure Placed (m : PCManager) (calls : List Position) : Prop where
  bySession : ∀ pc, m.sessionIdToPCMap.find pc.session = some pc →
    Begun calls pc ∧ (m.pcIdToPCMap.find pc.pcDBID = some pc ∨
      .insertByPCId pc ∈ calls ∨ .eraseBySessionId pc.session ∈ calls)
  byPCId : ∀ pc, m.pcIdToPCMap.find pc.pcDBID = some pc →
    .inserted pc ∈ calls ∧
      (m.sessionIdToPCMap.find pc.session = some pc ∨ .eraseByPCId pc.pcDBID ∈ calls)
  between : ∀ pc, .insertByPCId pc ∈ calls →
    m.sessionIdToPCMap.find pc.session = some pc ∨ .eraseByPCId pc.pcDBID ∈ calls
  erasingId : ∀ id, .eraseByPCId id ∈ calls → ∃ pc : PC, pc.pcDBID = id ∧ Begun calls pc ∧
    m.sessionIdToPCMap.find pc.session ≠ some pc
  erasingSession : ∀ sid, .eraseBySessionId sid ∈ calls → ∃ pc : PC, pc.session = sid ∧
    .inserted pc ∈ calls ∧ m.pcIdToPCMap.find pc.pcDBID ≠ some pc

/-- **What holds between the sections**, where no two logins share a session or a PC id. -/
structure Tracked (s : ManagerState) : Prop where
  keyed : Keyed s.manager
  unique : ∀ (i j : ℕ) p q pc pc', s.calls[i]? = some p → s.calls[j]? = some q →
    p.inserts = some pc → q.inserts = some pc' →
    pc.session = pc'.session ∨ pc.pcDBID = pc'.pcDBID → i = j
  placed : Placed s.manager s.calls

/-- Two logins that share a session or a PC id are one. -/
theorem Tracked.eq_of_mem (h : Tracked s) (hp : p ∈ s.calls) (hq : q ∈ s.calls)
    (hpc : p.inserts = some pc) (hpc' : q.inserts = some pc')
    (hshare : pc.session = pc'.session ∨ pc.pcDBID = pc'.pcDBID) : p = q ∧ pc = pc' := by
  obtain ⟨i, hi⟩ := List.mem_iff_getElem?.mp hp
  obtain ⟨j, hj⟩ := List.mem_iff_getElem?.mp hq
  obtain rfl := h.unique i j p q pc pc' hi hj hpc hpc' hshare
  obtain rfl : p = q := Option.some.inj (hi.symm.trans hj)
  exact ⟨rfl, Option.some.inj (hpc.symm.trans hpc')⟩

theorem Begun.exists_inserts (h : Begun calls pc) :
    ∃ p ∈ calls, p.inserts = some pc ∧ ∀ pc', p ≠ .insertBySessionId pc' := by
  rcases h with h | h
  · exact ⟨_, h, rfl, fun pc' => by simp⟩
  · exact ⟨_, h, rfl, fun pc' => by simp⟩

/-- So the `PC`s of two logins under way or done do not share a key, -/
theorem Tracked.eq_of_begun (h : Tracked s) (hpc : Begun s.calls pc) (hpc' : Begun s.calls pc')
    (hshare : pc.session = pc'.session ∨ pc.pcDBID = pc'.pcDBID) : pc = pc' := by
  obtain ⟨p, hp, hins, -⟩ := hpc.exists_inserts
  obtain ⟨q, hq, hins', -⟩ := hpc'.exists_inserts
  exact (h.eq_of_mem hp hq hins hins' hshare).2

/-- nor does one that is about to begin with any of them, -/
theorem Tracked.session_ne_of_begun (h : Tracked s) (hp : .insertBySessionId pc ∈ s.calls)
    (hpc' : Begun s.calls pc') : pc'.session ≠ pc.session := by
  intro hshare
  obtain ⟨q, hq, hins, hne⟩ := hpc'.exists_inserts
  exact hne pc (h.eq_of_mem hp hq rfl hins (.inl hshare.symm)).1.symm

/-- nor one between its sections with one that has returned. -/
theorem Tracked.not_inserted (h : Tracked s) (hp : .insertByPCId pc ∈ s.calls)
    (hq : .inserted pc' ∈ s.calls) :
    ¬ (pc.session = pc'.session ∨ pc.pcDBID = pc'.pcDBID) := by
  intro hshare
  cases (h.eq_of_mem hp hq rfl rfl hshare).1

/-! ## Replacing a position -/

theorem mem_set_of_ne {r : Position} (hi : calls[i]? = some p) (hr : r ∈ calls) (hne : r ≠ p) :
    r ∈ calls.set i q := by
  obtain ⟨j, hj⟩ := List.mem_iff_getElem?.mp hr
  have hij : i ≠ j := by
    rintro rfl
    exact hne (Option.some.inj (hj.symm.trans hi))
  exact List.mem_iff_getElem?.mpr ⟨j, by rwa [List.getElem?_set_ne hij]⟩

theorem mem_set_self (hi : calls[i]? = some p) : q ∈ calls.set i q :=
  List.mem_set (List.getElem?_eq_some_iff.mp hi).1 _

theorem mem_of_mem_set {r : Position} (hr : r ∈ calls.set i q) (hne : r ≠ q) : r ∈ calls :=
  (List.mem_or_eq_of_mem_set hr).resolve_right hne

theorem Advanced.inserts_eq (h : Advanced m p m' q) : q.inserts = p.inserts := by
  cases h <;> rfl

theorem Advanced.keyed (h : Advanced m p m' q) (hk : Keyed m) : Keyed m' := by
  cases h with
  | enteredSession _ => exact hk.assignSession
  | enteredId _ => exact hk.assignPCId
  | refused _ => exact hk
  | tookSession _ => exact hk.eraseSession _
  | noSession _ => exact hk
  | erasedId id => exact hk.erasePCId id
  | tookId _ => exact hk.erasePCId _
  | noId _ => exact hk
  | erasedSession sid => exact hk.eraseSession sid

/-- A login that has returned has returned. -/
theorem inserted_advance (h : .inserted pc ∈ calls) (hi : calls[i]? = some p)
    (ha : Advanced m p m' q) : .inserted pc ∈ calls.set i q := by
  refine mem_set_of_ne hi h ?_
  rintro rfl
  cases ha

/-- What has begun stays begun. -/
theorem Begun.advance (h : Begun calls pc) (hi : calls[i]? = some p) (ha : Advanced m p m' q) :
    Begun (calls.set i q) pc := by
  rcases h with h | h
  · by_cases hp : p = .insertByPCId pc
    · subst hp
      have hq : q = .inserted pc := by cases ha <;> rfl
      exact .inr (hq ▸ mem_set_self hi)
    · exact .inl (mem_set_of_ne hi h (Ne.symm hp))
  · exact .inr (inserted_advance h hi ha)

/-- What an erase has taken from the first map is not put back by a section that puts nothing
there, -/
theorem Placed.erasingId_advance (h : Placed m calls) (hi : calls[i]? = some p)
    (ha : Advanced m p m' q)
    (hfirst : ∀ pc : PC, m'.sessionIdToPCMap.find pc.session = some pc →
      m.sessionIdToPCMap.find pc.session = some pc)
    (hq : q ≠ .eraseByPCId id) (hr : .eraseByPCId id ∈ calls.set i q) :
    ∃ pc : PC, pc.pcDBID = id ∧ Begun (calls.set i q) pc ∧
      m'.sessionIdToPCMap.find pc.session ≠ some pc := by
  obtain ⟨pc, hid, hbegun, hs⟩ := h.erasingId id (mem_of_mem_set hr hq.symm)
  exact ⟨pc, hid, hbegun.advance hi ha, fun hf => hs (hfirst pc hf)⟩

/-- nor what one has taken from the second. -/
theorem Placed.erasingSession_advance (h : Placed m calls) (hi : calls[i]? = some p)
    (ha : Advanced m p m' q)
    (hsecond : ∀ pc : PC, m'.pcIdToPCMap.find pc.pcDBID = some pc →
      m.pcIdToPCMap.find pc.pcDBID = some pc)
    (hq : q ≠ .eraseBySessionId sid) (hr : .eraseBySessionId sid ∈ calls.set i q) :
    ∃ pc : PC, pc.session = sid ∧ .inserted pc ∈ calls.set i q ∧
      m'.pcIdToPCMap.find pc.pcDBID ≠ some pc := by
  obtain ⟨pc, hsid, hin, hid⟩ := h.erasingSession sid (mem_of_mem_set hr hq.symm)
  exact ⟨pc, hsid, inserted_advance hin hi ha, fun hf => hid (hsecond pc hf)⟩

/-- And a login keeps its `PC`, so that no two share a key still. -/
theorem Tracked.unique_advance (h : Tracked s) (hi : s.calls[i]? = some p)
    (hins : q.inserts = p.inserts) (j k : ℕ) (a b : Position) (pc pc' : PC)
    (hj : (s.calls.set i q)[j]? = some a) (hk : (s.calls.set i q)[k]? = some b)
    (hpc : a.inserts = some pc) (hpc' : b.inserts = some pc')
    (hshare : pc.session = pc'.session ∨ pc.pcDBID = pc'.pcDBID) : j = k := by
  have hold : ∀ {j : ℕ} {a : Position}, (s.calls.set i q)[j]? = some a →
      ∃ a', s.calls[j]? = some a' ∧ a'.inserts = a.inserts := by
    intro j a hj
    rcases getElem?_set_eq_some hj with ⟨rfl, rfl⟩ | ⟨-, hj⟩
    · exact ⟨p, hi, hins.symm⟩
    · exact ⟨a, hj, rfl⟩
  obtain ⟨a', hj', ha'⟩ := hold hj
  obtain ⟨b', hk', hb'⟩ := hold hk
  exact h.unique j k a' b' pc pc' hj' hk' (ha'.trans hpc) (hb'.trans hpc') hshare

/-! ## What each section does to the `PC`s -/

/-- A login enters the first map. -/
theorem Tracked.placed_enteredSession (h : Tracked s)
    (hi : s.calls[i]? = some (.insertBySessionId pc))
    (ha : Advanced s.manager (.insertBySessionId pc) m' (.insertByPCId pc))
    (hm : m' = { s.manager with
      sessionIdToPCMap := s.manager.sessionIdToPCMap.assign pc.session pc }) :
    Placed m' (s.calls.set i (.insertByPCId pc)) := by
  subst hm
  have hp := List.mem_of_getElem? hi
  have hne : ∀ {pc'}, Begun s.calls pc' → pc'.session ≠ pc.session := h.session_ne_of_begun hp
  constructor
  · intro pc' hf
    rcases KeyMap.find_assign_eq_some.mp hf with ⟨-, rfl⟩ | ⟨-, hf⟩
    · exact ⟨.inl (mem_set_self hi), .inr (.inl (mem_set_self hi))⟩
    · obtain ⟨hbegun, hwhere⟩ := h.placed.bySession pc' hf
      refine ⟨hbegun.advance hi ha, hwhere.imp_right (Or.imp ?_ ?_)⟩
      · exact fun hr => mem_set_of_ne hi hr (by simp)
      · exact fun hr => mem_set_of_ne hi hr (by simp)
  · intro pc' hf
    obtain ⟨hin, hwhere⟩ := h.placed.byPCId pc' hf
    refine ⟨mem_set_of_ne hi hin (by simp), hwhere.imp (fun hs => ?_) fun hr => ?_⟩
    · exact (KeyMap.find_assign_of_ne (hne (.inr hin))).trans hs
    · exact mem_set_of_ne hi hr (by simp)
  · intro pc' hr
    by_cases hpc : pc' = pc
    · subst hpc
      exact .inl KeyMap.find_assign_self
    · have hr' := mem_of_mem_set hr (by simpa using hpc)
      refine (h.placed.between pc' hr').imp (fun hs => ?_) fun hr => ?_
      · exact (KeyMap.find_assign_of_ne (hne (.inl hr'))).trans hs
      · exact mem_set_of_ne hi hr (by simp)
  · intro id hr
    obtain ⟨pc', hid, hbegun, hs⟩ := h.placed.erasingId id (mem_of_mem_set hr (by simp))
    refine ⟨pc', hid, hbegun.advance hi ha, ?_⟩
    rwa [KeyMap.find_assign_of_ne (hne hbegun)]
  · exact fun sid => h.placed.erasingSession_advance hi ha (fun _ hf => hf) (by simp)

/-- A login enters the second map. -/
theorem Tracked.placed_enteredId (h : Tracked s) (hi : s.calls[i]? = some (.insertByPCId pc))
    (ha : Advanced s.manager (.insertByPCId pc) m' (.inserted pc))
    (hnone : s.manager.pcIdToPCMap.find pc.pcDBID = none)
    (hm : m' = { s.manager with
      pcIdToPCMap := s.manager.pcIdToPCMap.assign pc.pcDBID pc }) :
    Placed m' (s.calls.set i (.inserted pc)) := by
  subst hm
  have hp := List.mem_of_getElem? hi
  constructor
  · intro pc' hf
    obtain ⟨hbegun, hwhere⟩ := h.placed.bySession pc' hf
    refine ⟨hbegun.advance hi ha, ?_⟩
    by_cases hpc : pc' = pc
    · subst hpc
      exact .inl KeyMap.find_assign_self
    · refine hwhere.imp (fun hid => ?_) (Or.imp ?_ ?_)
      · have hne : pc'.pcDBID ≠ pc.pcDBID := by
          intro heq
          rw [heq, hnone] at hid
          cases hid
        exact (KeyMap.find_assign_of_ne hne).trans hid
      · exact fun hr => mem_set_of_ne hi hr (by simpa using hpc)
      · exact fun hr => mem_set_of_ne hi hr (by simp)
  · intro pc' hf
    rcases KeyMap.find_assign_eq_some.mp hf with ⟨-, rfl⟩ | ⟨-, hf⟩
    · refine ⟨mem_set_self hi, (h.placed.between pc hp).imp_right fun hr => ?_⟩
      exact mem_set_of_ne hi hr (by simp)
    · obtain ⟨hin, hwhere⟩ := h.placed.byPCId pc' hf
      refine ⟨mem_set_of_ne hi hin (by simp), hwhere.imp_right fun hr => ?_⟩
      exact mem_set_of_ne hi hr (by simp)
  · intro pc' hr
    refine (h.placed.between pc' (mem_of_mem_set hr (by simp))).imp_right fun hr => ?_
    exact mem_set_of_ne hi hr (by simp)
  · exact fun id => h.placed.erasingId_advance hi ha (fun _ hf => hf) (by simp)
  · intro sid hr
    obtain ⟨pc', hsid, hin, hid⟩ := h.placed.erasingSession sid (mem_of_mem_set hr (by simp))
    refine ⟨pc', hsid, mem_set_of_ne hi hin (by simp), ?_⟩
    have hne : pc'.pcDBID ≠ pc.pcDBID := fun heq => h.not_inserted hp hin (.inr heq.symm)
    rwa [KeyMap.find_assign_of_ne hne]

/-- An erase takes a `PC` from the first map. -/
theorem Tracked.placed_tookSession (h : Tracked s)
    (hi : s.calls[i]? = some (.takeBySessionId sid))
    (ha : Advanced s.manager (.takeBySessionId sid) m' (.eraseByPCId pc.pcDBID))
    (hfind : s.manager.sessionIdToPCMap.find sid = some pc)
    (hm : m' = { s.manager with sessionIdToPCMap := s.manager.sessionIdToPCMap.erase sid }) :
    Placed m' (s.calls.set i (.eraseByPCId pc.pcDBID)) := by
  subst hm
  obtain rfl := h.keyed.session sid pc hfind
  -- whoever was in the first map is there still, or is the one taken
  have hwhere : ∀ pc', s.manager.sessionIdToPCMap.find pc'.session = some pc' ∨
        .eraseByPCId pc'.pcDBID ∈ s.calls →
      (s.manager.sessionIdToPCMap.erase pc.session).find pc'.session = some pc' ∨
        .eraseByPCId pc'.pcDBID ∈ s.calls.set i (.eraseByPCId pc.pcDBID) := by
    rintro pc' (hs | hr)
    · by_cases heq : pc'.session = pc.session
      · rw [heq, hfind] at hs
        cases hs
        exact .inr (mem_set_self hi)
      · exact .inl ((KeyMap.find_erase_of_ne heq).trans hs)
    · exact .inr (mem_set_of_ne hi hr (by simp))
  constructor
  · intro pc' hf
    obtain ⟨-, hf⟩ := KeyMap.find_erase_eq_some.mp hf
    obtain ⟨hbegun, hwhere⟩ := h.placed.bySession pc' hf
    refine ⟨hbegun.advance hi ha, hwhere.imp_right (Or.imp ?_ ?_)⟩
    · exact fun hr => mem_set_of_ne hi hr (by simp)
    · exact fun hr => mem_set_of_ne hi hr (by simp)
  · intro pc' hf
    obtain ⟨hin, hpc⟩ := h.placed.byPCId pc' hf
    exact ⟨mem_set_of_ne hi hin (by simp), hwhere pc' hpc⟩
  · intro pc' hr
    exact hwhere pc' (h.placed.between pc' (mem_of_mem_set hr (by simp)))
  · intro id hr
    by_cases hid : id = pc.pcDBID
    · refine ⟨pc, hid.symm, (h.placed.bySession pc hfind).1.advance hi ha, ?_⟩
      simp
    · obtain ⟨pc', hid', hbegun, hs⟩ :=
        h.placed.erasingId id (mem_of_mem_set hr (by simpa using hid))
      exact ⟨pc', hid', hbegun.advance hi ha, fun hf => hs (KeyMap.find_of_find_erase hf)⟩
  · exact fun sid => h.placed.erasingSession_advance hi ha (fun _ hf => hf) (by simp)

/-- The erase forgets it in the second, where no login is about to enter it. -/
theorem Tracked.placed_erasedId (h : Tracked s) (hi : s.calls[i]? = some (.eraseByPCId id))
    (ha : Advanced s.manager (.eraseByPCId id) m' .erased)
    (hentered : ∀ pc : PC, .insertByPCId pc ∈ s.calls → pc.pcDBID ≠ id)
    (hm : m' = { s.manager with pcIdToPCMap := s.manager.pcIdToPCMap.erase id }) :
    Placed m' (s.calls.set i .erased) := by
  subst hm
  obtain ⟨taken, rfl, htaken, hgone⟩ := h.placed.erasingId id (List.mem_of_getElem? hi)
  constructor
  · intro pc hf
    obtain ⟨hbegun, hwhere⟩ := h.placed.bySession pc hf
    refine ⟨hbegun.advance hi ha, hwhere.imp (fun hid => ?_) (Or.imp ?_ ?_)⟩
    · have hne : pc.pcDBID ≠ taken.pcDBID := by
        intro heq
        obtain rfl := h.eq_of_begun hbegun htaken (.inr heq)
        exact hgone hf
      exact (KeyMap.find_erase_of_ne hne).trans hid
    · exact fun hr => mem_set_of_ne hi hr (by simp)
    · exact fun hr => mem_set_of_ne hi hr (by simp)
  · intro pc hf
    obtain ⟨hne, hf⟩ := KeyMap.find_erase_eq_some.mp hf
    obtain ⟨hin, hwhere⟩ := h.placed.byPCId pc hf
    refine ⟨mem_set_of_ne hi hin (by simp), hwhere.imp_right fun hr => ?_⟩
    exact mem_set_of_ne hi hr (by simpa using hne)
  · intro pc hr
    have hr' := mem_of_mem_set hr (by simp)
    refine (h.placed.between pc hr').imp_right fun hr => ?_
    exact mem_set_of_ne hi hr (by simpa using hentered pc hr')
  · exact fun id => h.placed.erasingId_advance hi ha (fun _ hf => hf) (by simp)
  · refine fun sid => h.placed.erasingSession_advance hi ha (fun _ => ?_) (by simp)
    exact KeyMap.find_of_find_erase

/-- An erase takes a `PC` from the second map. -/
theorem Tracked.placed_tookId (h : Tracked s) (hi : s.calls[i]? = some (.takeByPCId id))
    (ha : Advanced s.manager (.takeByPCId id) m' (.eraseBySessionId pc.session))
    (hfind : s.manager.pcIdToPCMap.find id = some pc)
    (hm : m' = { s.manager with pcIdToPCMap := s.manager.pcIdToPCMap.erase id }) :
    Placed m' (s.calls.set i (.eraseBySessionId pc.session)) := by
  subst hm
  obtain rfl := h.keyed.pcDBID id pc hfind
  constructor
  · intro pc' hf
    obtain ⟨hbegun, hwhere⟩ := h.placed.bySession pc' hf
    refine ⟨hbegun.advance hi ha, ?_⟩
    rcases hwhere with hid | hr | hr
    · by_cases heq : pc'.pcDBID = pc.pcDBID
      · rw [heq, hfind] at hid
        cases hid
        exact .inr (.inr (mem_set_self hi))
      · exact .inl ((KeyMap.find_erase_of_ne heq).trans hid)
    · exact .inr (.inl (mem_set_of_ne hi hr (by simp)))
    · exact .inr (.inr (mem_set_of_ne hi hr (by simp)))
  · intro pc' hf
    obtain ⟨-, hf⟩ := KeyMap.find_erase_eq_some.mp hf
    obtain ⟨hin, hwhere⟩ := h.placed.byPCId pc' hf
    refine ⟨mem_set_of_ne hi hin (by simp), hwhere.imp_right fun hr => ?_⟩
    exact mem_set_of_ne hi hr (by simp)
  · intro pc' hr
    refine (h.placed.between pc' (mem_of_mem_set hr (by simp))).imp_right fun hr => ?_
    exact mem_set_of_ne hi hr (by simp)
  · exact fun id => h.placed.erasingId_advance hi ha (fun _ hf => hf) (by simp)
  · intro sid hr
    by_cases hsid : sid = pc.session
    · refine ⟨pc, hsid.symm, mem_set_of_ne hi (h.placed.byPCId pc hfind).1 (by simp), ?_⟩
      simp
    · obtain ⟨pc', hsid', hin, hid⟩ :=
        h.placed.erasingSession sid (mem_of_mem_set hr (by simpa using hsid))
      exact ⟨pc', hsid', mem_set_of_ne hi hin (by simp),
        fun hf => hid (KeyMap.find_of_find_erase hf)⟩

/-- The erase forgets it in the first. -/
theorem Tracked.placed_erasedSession (h : Tracked s)
    (hi : s.calls[i]? = some (.eraseBySessionId sid))
    (ha : Advanced s.manager (.eraseBySessionId sid) m' .erased)
    (hm : m' = { s.manager with sessionIdToPCMap := s.manager.sessionIdToPCMap.erase sid }) :
    Placed m' (s.calls.set i .erased) := by
  subst hm
  obtain ⟨taken, rfl, htaken, hgone⟩ := h.placed.erasingSession sid (List.mem_of_getElem? hi)
  constructor
  · intro pc hf
    obtain ⟨hne, hf⟩ := KeyMap.find_erase_eq_some.mp hf
    obtain ⟨hbegun, hwhere⟩ := h.placed.bySession pc hf
    refine ⟨hbegun.advance hi ha, hwhere.imp_right (Or.imp ?_ ?_)⟩
    · exact fun hr => mem_set_of_ne hi hr (by simp)
    · exact fun hr => mem_set_of_ne hi hr (by simpa using hne)
  · intro pc hf
    obtain ⟨hin, hwhere⟩ := h.placed.byPCId pc hf
    refine ⟨mem_set_of_ne hi hin (by simp), hwhere.imp (fun hs => ?_) fun hr => ?_⟩
    · have hne : pc.session ≠ taken.session := by
        intro heq
        obtain rfl := h.eq_of_begun (.inr hin) (.inr htaken) (.inl heq)
        exact hgone hf
      exact (KeyMap.find_erase_of_ne hne).trans hs
    · exact mem_set_of_ne hi hr (by simp)
  · intro pc hr
    have hr' := mem_of_mem_set hr (by simp)
    have hne : pc.session ≠ taken.session := fun heq => h.not_inserted hr' htaken (.inl heq)
    refine (h.placed.between pc hr').imp (fun hs => ?_) fun hr => ?_
    · exact (KeyMap.find_erase_of_ne hne).trans hs
    · exact mem_set_of_ne hi hr (by simp)
  · exact fun id => h.placed.erasingId_advance hi ha (fun _ => KeyMap.find_of_find_erase) (by simp)
  · exact fun sid => h.placed.erasingSession_advance hi ha (fun _ hf => hf) (by simp)

/-- An erase finds nothing to take. -/
theorem Tracked.placed_nothing (h : Tracked s) (hi : s.calls[i]? = some p)
    (ha : Advanced s.manager p s.manager .erased)
    (htakes : (∃ sid, p = .takeBySessionId sid) ∨ ∃ id, p = .takeByPCId id) :
    Placed s.manager (s.calls.set i .erased) := by
  have hkeep : ∀ {r : Position}, r ∈ s.calls → (∀ sid, r ≠ .takeBySessionId sid) →
      (∀ id, r ≠ .takeByPCId id) → r ∈ s.calls.set i .erased := by
    intro r hr hs hid
    refine mem_set_of_ne hi hr ?_
    rintro rfl
    rcases htakes with ⟨sid, rfl⟩ | ⟨id, rfl⟩
    · exact hs sid rfl
    · exact hid id rfl
  constructor
  · intro pc hf
    obtain ⟨hbegun, hwhere⟩ := h.placed.bySession pc hf
    refine ⟨hbegun.advance hi ha, hwhere.imp_right (Or.imp ?_ ?_)⟩
    · exact fun hr => hkeep hr (by simp) (by simp)
    · exact fun hr => hkeep hr (by simp) (by simp)
  · intro pc hf
    obtain ⟨hin, hwhere⟩ := h.placed.byPCId pc hf
    refine ⟨hkeep hin (by simp) (by simp), hwhere.imp_right fun hr => ?_⟩
    exact hkeep hr (by simp) (by simp)
  · intro pc hr
    refine (h.placed.between pc (mem_of_mem_set hr (by simp))).imp_right fun hr => ?_
    exact hkeep hr (by simp) (by simp)
  · exact fun id => h.placed.erasingId_advance hi ha (fun _ hf => hf) (by simp)
  · exact fun sid => h.placed.erasingSession_advance hi ha (fun _ hf => hf) (by simp)

/-- **A section keeps what holds between the sections.** -/
theorem Tracked.advance (h : Tracked s) (hi : s.calls[i]? = some p)
    (ha : Advanced s.manager p m' q)
    (hentered : ∀ id pc, p = .eraseByPCId id → .insertByPCId pc ∈ s.calls → pc.pcDBID ≠ id) :
    Tracked ⟨m', s.calls.set i q⟩ := by
  refine ⟨ha.keyed h.keyed, h.unique_advance hi ha.inserts_eq, ?_⟩
  have ha' := ha
  cases ha with
  | enteredSession hnone => exact h.placed_enteredSession hi ha' rfl
  | enteredId hnone => exact h.placed_enteredId hi ha' hnone rfl
  | @refused pc old hfind =>
    -- the `PC` in the way came from another login of the same id
    have hid := h.keyed.pcDBID _ _ hfind
    rw [← hid] at hfind
    have hin := (h.placed.byPCId old hfind).1
    exact absurd (.inr hid.symm) (h.not_inserted (List.mem_of_getElem? hi) hin)
  | tookSession hfind => exact h.placed_tookSession hi ha' hfind rfl
  | noSession hnone => exact h.placed_nothing hi ha' (.inl ⟨_, rfl⟩)
  | erasedId id => exact h.placed_erasedId hi ha' (fun pc => hentered id pc rfl) rfl
  | tookId hfind => exact h.placed_tookId hi ha' hfind rfl
  | noId hnone => exact h.placed_nothing hi ha' (.inr ⟨_, rfl⟩)
  | erasedSession sid => exact h.placed_erasedSession hi ha' rfl

/-- A new call changes nothing yet. -/
theorem Placed.call (h : Placed m calls) (c : Call) : Placed m (calls ++ [c.start]) := by
  have hkeep : ∀ {r : Position}, r ∈ calls → r ∈ calls ++ [c.start] :=
    fun hr => List.mem_append_left _ hr
  have hold : ∀ {r : Position}, r ∈ calls ++ [c.start] → r ≠ c.start → r ∈ calls := by
    intro r hr hne
    exact (List.mem_append.mp hr).resolve_right fun hr => hne (List.mem_singleton.mp hr)
  have hbegun : ∀ {pc}, Begun calls pc → Begun (calls ++ [c.start]) pc := Or.imp hkeep hkeep
  constructor
  · intro pc hf
    exact (h.bySession pc hf).imp hbegun (Or.imp_right (Or.imp hkeep hkeep))
  · intro pc hf
    exact (h.byPCId pc hf).imp hkeep (Or.imp_right hkeep)
  · intro pc hr
    exact (h.between pc (hold hr (by cases c <;> simp [Call.start]))).imp_right hkeep
  · intro id hr
    obtain ⟨pc, hid, hb, hs⟩ := h.erasingId id (hold hr (by cases c <;> simp [Call.start]))
    exact ⟨pc, hid, hbegun hb, hs⟩
  · intro sid hr
    obtain ⟨pc, hsid, hin, hid⟩ := h.erasingSession sid (hold hr (by cases c <;> simp [Call.start]))
    exact ⟨pc, hsid, hkeep hin, hid⟩

/-- A login of a new session and a new PC id shares neither with another. -/
theorem Tracked.call (h : Tracked s) (hfresh : logsInFresh s (.call c) = true) :
    Tracked { s with calls := s.calls ++ [c.start] } := by
  have hnew : ∀ {p : Position} {pc pc' : PC}, p ∈ s.calls → p.inserts = some pc →
      c.start.inserts = some pc' → ¬ (pc.session = pc'.session ∨ pc.pcDBID = pc'.pcDBID) := by
    intro p pc pc' hp hpc hpc'
    cases c with
    | insertPC session id =>
      obtain rfl := Option.some.inj hpc'
      have hall := List.all_eq_true.mp hfresh p hp
      rw [hpc] at hall
      simpa [not_or] using hall
    | erasePCBySessionId sessionId => cases hpc'
    | erasePCByPCId pcId => cases hpc'
  refine ⟨h.keyed, fun i j p q pc pc' hi hj hpc hpc' hshare => ?_, h.placed.call c⟩
  rcases getElem?_concat_eq_some hi with hi | ⟨rfl, rfl⟩
  · rcases getElem?_concat_eq_some hj with hj | ⟨rfl, rfl⟩
    · exact h.unique i j p q pc pc' hi hj hpc hpc' hshare
    · exact absurd hshare (hnew (List.mem_of_getElem? hi) hpc hpc')
  · rcases getElem?_concat_eq_some hj with hj | ⟨rfl, rfl⟩
    · exact absurd (hshare.imp Eq.symm Eq.symm) (hnew (List.mem_of_getElem? hj) hpc' hpc)
    · rfl

theorem Tracked.of_init (h : concurrentManager.Init s) : Tracked s := by
  obtain rfl : s = ⟨.empty, []⟩ := h
  refine ⟨.empty, fun i j p q pc pc' hi => ?_, ?_⟩
  · cases hi
  · constructor
    · intro pc hf
      cases hf
    · intro pc hf
      cases hf
    · intro pc hr
      cases hr
    · intro id hr
      cases hr
    · intro sid hr
      cases hr

theorem erasesEntered_iff (hi : s.calls[i]? = some (.eraseByPCId id))
    (h : erasesEntered s (.advance i) = true) (hpc : .insertByPCId pc ∈ s.calls) :
    pc.pcDBID ≠ id := by
  rw [erasesEntered, hi] at h
  simpa using List.all_eq_true.mp h _ hpc

/-- **Every step keeps it.** -/
theorem Tracked.step (h : Tracked s) (hfresh : logsInFresh s e = true)
    (hentered : erasesEntered s e = true) (hs : s.step e = some s') : Tracked s' := by
  cases e with
  | call c =>
    obtain rfl := Option.some.inj hs
    exact h.call hfresh
  | advance i =>
    obtain ⟨p, hi, hrest⟩ := Option.bind_eq_some_iff.mp hs
    obtain ⟨⟨m', q⟩, hadv, rfl⟩ := Option.map_eq_some_iff.mp hrest
    refine h.advance hi (advanced hadv) ?_
    rintro id pc rfl hpc
    exact erasesEntered_iff hi hentered hpc

/-! ## When no call is in progress -/

/-- Where nothing is on its way, a `PC` is in both maps or in neither. -/
theorem Tracked.agrees (h : Tracked s) (hquiet : s.Quiet) : Agrees s.manager := by
  intro pc
  have hnot : ∀ {p : Position}, p.returned = false → p ∉ s.calls := by
    intro p hp hmem
    rw [hquiet p hmem] at hp
    cases hp
  constructor
  · intro hf
    rcases (h.placed.bySession pc hf).2 with hid | hr | hr
    · exact hid
    · exact absurd hr (hnot rfl)
    · exact absurd hr (hnot rfl)
  · intro hf
    rcases (h.placed.byPCId pc hf).2 with hs | hr
    · exact hs
    · exact absurd hr (hnot rfl)

/-- **Whenever no call is in progress, each `PC` is in both maps or in neither**, however the
sections of logins of different players and of erases interleave, as long as no erase looks for a
PC id that a login is about to enter. -/
theorem agrees_of_reachableUnder
    (h : concurrentManager.ReachableUnder
      (fun s e => logsInFresh s e = true ∧ erasesEntered s e = true) s)
    (hquiet : s.Quiet) : Agrees s.manager := by
  have htracked : Tracked s :=
    h.invariant (fun _ => .of_init) fun _ _ _ ih hc hs => ih.step hc.1 hc.2 hs
  exact htracked.agrees hquiet

/-- Two players log in while one of them is erased by both ids; both erases find the login done. -/
theorem agrees_interleaved : ∃ s : ManagerState, s.Quiet ∧ s.manager.findPCByPCId 8 = some ⟨3, 8⟩ ∧
    s.manager.findPCBySessionId 2 = none ∧ Agrees s.manager := by
  obtain ⟨s, hs, hf⟩ := concurrentManager.exists_reachableUnder
    [.call (.insertPC 2 7), .call (.insertPC 3 8), .advance 0, .advance 1,
      .call (.erasePCBySessionId 2), .call (.erasePCByPCId 7), .advance 2, .advance 0, .advance 3,
      .advance 2, .advance 1, .advance 3]
    (s := (⟨.empty, []⟩ : ManagerState))
    (c := fun s e => logsInFresh s e && erasesEntered s e)
    (f := fun s => s.calls.all Position.returned &&
      decide (s.manager.findPCByPCId 8 = some ⟨3, 8⟩ ∧ s.manager.findPCBySessionId 2 = none))
    rfl (by decide +kernel)
  simp only [Bool.and_eq_true, decide_eq_true_eq, List.all_eq_true] at hs hf
  obtain ⟨hquiet, hid, hsession⟩ := hf
  exact ⟨s, hquiet, hid, hsession, agrees_of_reachableUnder hs hquiet⟩

/-- **An erase comes between the two sections of a login** and runs to its end there. The login then
enters its `PC` into the second map, where no session leads to it. -/
theorem not_agrees_orphan : ∃ s : ManagerState,
    concurrentManager.ReachableUnder (fun s e => logsInFresh s e = true) s ∧ s.Quiet ∧
      ¬ Agrees s.manager := by
  obtain ⟨s, hs, hf⟩ := concurrentManager.exists_reachableUnder
    [.call (.insertPC 2 7), .advance 0, .call (.erasePCBySessionId 2), .advance 1, .advance 1,
      .advance 0]
    (s := (⟨.empty, []⟩ : ManagerState)) (c := logsInFresh)
    (f := fun s => s.calls.all Position.returned &&
      decide (s.manager.findPCByPCId 7 = some ⟨2, 7⟩ ∧ s.manager.findPCBySessionId 2 = none))
    rfl (by decide +kernel)
  simp only [Bool.and_eq_true, decide_eq_true_eq, List.all_eq_true] at hf
  obtain ⟨hquiet, hid, hsession⟩ := hf
  refine ⟨s, hs, hquiet, fun h => ?_⟩
  cases hsession.symm.trans ((h ⟨2, 7⟩).mpr hid)

end GameServer

end DdingGameServer
