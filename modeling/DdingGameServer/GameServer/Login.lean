import DdingGameServer.GameServer.Interleaved
import DdingGameServer.RIOServer.RefCount
/-!
# Logins and sessions — who is found after leaving

The game server runs `RIOServer` and `PCManager` side by side. `RIOServer` accepts and releases
sessions as it does on its own, in its own atomic steps; `InsertPC` is called with a session of
`sessionMap` and runs in its two sections. Nothing in the program calls an erase of the manager: a
release goes through `OnSessionReleased`, which only gives the buffers back.

So a `PC` once found is found for good, and what the manager promises about sessions depends on
none of them being released: `belongs_iff_meets`.
-/

namespace DdingGameServer

namespace GameServer

open RIOServer (SessionId State Event NetConfig NetBuffer Op RefCounted)

/-- The server and the manager. -/
structure LoginState where
  server : State
  registry : ManagerState

inductive LoginEvent
  /-- A step of `RIOServer`. -/
  | server (e : Event)
  /-- `InsertPC` is called with a session of `sessionMap`. -/
  | login (session : SessionId) (id : PCDBID)
  /-- The next section of the `i`-th call of `InsertPC`. -/
  | advance (i : ℕ)
  deriving DecidableEq, Repr

def LoginState.step (cfg : NetConfig) (s : LoginState) : LoginEvent → Option LoginState
  | .server e => (RIOServer.step cfg s.server e).map fun server => { s with server }
  | .login session id =>
    if session ∈ s.server.shared.sessionMap then
      (s.registry.step (.call (.insertPC session id))).map fun registry => { s with registry }
    else none
  | .advance i => (s.registry.step (.advance i)).map fun registry => { s with registry }

/-- **The game server's sessions and players.** -/
def loginSystem (cfg : NetConfig) : System LoginState LoginEvent where
  Init s := (RIOServer.system cfg).Init s.server ∧ concurrentManager.Init s.registry
  step := LoginState.step cfg

/-- **Every `PC` that is found belongs to a session in `sessionMap`.** -/
def Belongs (s : LoginState) : Prop :=
  ∀ pc, (∃ sid, s.registry.manager.findPCBySessionId sid = some pc) ∨
    (∃ id, s.registry.manager.findPCByPCId id = some pc) → pc.session ∈ s.server.shared.sessionMap

/-- **A player can log in again after leaving**: where no session that logged in with the PC id is
left, `InsertPC` for it with a session that has no `PC` yet enters both maps and disconnects
nobody. -/
def LogsInAgain (s : LoginState) : Prop :=
  ∀ id session, (∀ p ∈ s.registry.calls, ∀ pc, p.inserts = some pc → pc.pcDBID = id →
      pc.session ∉ s.server.shared.sessionMap) →
    s.registry.manager.findPCBySessionId session = none →
    ∃ m, s.registry.manager.insertPC session id = some (m, []) ∧
      m.findPCBySessionId session = some ⟨session, id⟩ ∧ m.findPCByPCId id = some ⟨session, id⟩

/-- The session a step of the server erases from `sessionMap`. -/
def erasedSession (s : State) (e : Event) : Option SessionId :=
  match s.executing e with
  | some (t, .eraseSession, _) => some t.session
  | _ => none

/-- No session with a `PC` is released, and no `PC` is entered for a session that was. -/
def keepsPlayers (s : LoginState) : LoginEvent → Bool
  | .server e =>
    (erasedSession s.server e).all fun sid => s.registry.manager.findPCBySessionId sid = none
  | .login _ _ => true
  | .advance i =>
    match s.registry.calls[i]? with
    | some (.insertBySessionId pc) => pc.session ∈ s.server.shared.sessionMap
    | _ => true

variable {cfg : NetConfig} {s s' : LoginState} {e : LoginEvent} {es : List LoginEvent} {pc : PC}
  {sid : SessionId} {id : PCDBID} {p q : Position} {m' : PCManager} {i : ℕ}

/-! ## A session leaves the map once -/

/-- A step that executes no operation erases nothing. -/
theorem erasedSession_of_not_exec {s : State} {e : Event}
    (h : ∀ i ok replies, e ≠ .exec i ok replies) : erasedSession s e = none := by
  cases e with
  | exec i ok replies => exact absurd rfl (h i ok replies)
  | _ => rfl

/-- **A session that was put into the map stays there until it is erased**, and does not come
back. -/
theorem mem_sessionMap_step {s s' : State} {e : Event} (hem : s.pending Op.emplaces sid = 0)
    (hs : RIOServer.Step cfg s e s') :
    sid ∈ s'.shared.sessionMap ↔ sid ∈ s.shared.sessionMap ∧ erasedSession s e ≠ some sid := by
  by_cases hexec : ∀ i ok replies, e ≠ .exec i ok replies
  · rw [hs.shared_of_not_exec hexec, erasedSession_of_not_exec hexec]
    simp
  push Not at hexec
  obtain ⟨i, ok, replies, rfl⟩ := hexec
  obtain ⟨t, op, rest, hi, hcode⟩ := hs.exec_next
  rw [hs.exec_shared hi hcode, RIOServer.execOp_sessionMap]
  simp only [erasedSession, RIOServer.executing_eq hi hcode]
  by_cases hemplace : op = .emplaceSession
  · -- another session enters the map
    subst hemplace
    have hne : sid ≠ t.session := by
      rintro rfl
      exact (RIOServer.pending_pos_of_next hi rfl hcode rfl).ne' hem
    simp [hne]
  · by_cases herase : op = .eraseSession
    · subst herase
      simp [and_comm, eq_comm]
    · simp [hemplace, herase]

/-- Nor is it put there again. -/
theorem emplaces_step {s s' : State} {e : Event} (hsid : sid ≤ s.nextSessionId)
    (hem : s.pending Op.emplaces sid = 0) (hs : RIOServer.Step cfg s e s') :
    s'.pending Op.emplaces sid = 0 := by
  cases hs.alters sid with
  | kept hkept => rwa [hkept.pending]
  | entered threadId hid hnext hlt hse hsh hp =>
    exact absurd hsid (Nat.not_le.mpr (hid ▸ RIOServer.lt_newSessionId))
  | executed ok replies hi hts hcode ho hse hsh hp =>
    have hpe := hp Op.emplaces
    rw [ho, RIOServer.execOp_emplaces] at hpe
    omega

/-! ## Logins -/

/-- **What holds of the logins.** Every call is an `InsertPC` of a session that was in `sessionMap`,
and what has been entered stays entered. -/
structure LoggedIn (s : LoginState) : Prop where
  refCounted : RefCounted s.server
  keyed : Keyed s.registry.manager
  /-- Nobody calls an erase. -/
  logins : ∀ p ∈ s.registry.calls, ∃ pc, p.inserts = some pc
  sessions : ∀ p ∈ s.registry.calls, ∀ pc, p.inserts = some pc →
    pc.session ≤ s.server.nextSessionId ∧ s.server.pending Op.emplaces pc.session = 0
  bySession : ∀ pc, s.registry.manager.sessionIdToPCMap.find pc.session = some pc ↔
    Begun s.registry.calls pc
  byPCId : ∀ pc, s.registry.manager.pcIdToPCMap.find pc.pcDBID = some pc →
    Begun s.registry.calls pc

theorem Begun.exists_mem {calls : List Position} (h : Begun calls pc) :
    ∃ p ∈ calls, p.inserts = some pc := by
  obtain ⟨p, hp, hins, -⟩ := h.exists_inserts
  exact ⟨p, hp, hins⟩

/-- **A `PC` that is found is found by its session.** -/
theorem LoggedIn.belongs_iff (h : LoggedIn s) :
    Belongs s ↔ ∀ pc : PC, s.registry.manager.sessionIdToPCMap.find pc.session = some pc →
      pc.session ∈ s.server.shared.sessionMap := by
  constructor
  · intro hb pc hf
    exact hb pc (.inl ⟨pc.session, hf⟩)
  · rintro hb pc (⟨sid, hf⟩ | ⟨id, hf⟩)
    · obtain rfl := h.keyed.session sid pc hf
      exact hb pc hf
    · obtain rfl := h.keyed.pcDBID id pc hf
      exact hb pc ((h.bySession pc).mpr (h.byPCId pc hf))

/-- **Who belongs to a session can log in again after leaving.** -/
theorem LoggedIn.logsInAgain (h : LoggedIn s) (hb : Belongs s) : LogsInAgain s := by
  intro id session hleft hnew
  have hid : s.registry.manager.pcIdToPCMap.find id = none := by
    by_contra hne
    obtain ⟨pc, hf⟩ := Option.ne_none_iff_exists'.mp hne
    obtain rfl := h.keyed.pcDBID id pc hf
    obtain ⟨p, hp, hins⟩ := (h.byPCId pc hf).exists_mem
    exact hleft p hp pc hins rfl (hb pc (.inr ⟨pc.pcDBID, hf⟩))
  exact ⟨_, PCManager.insertPC_of_free hnew hid, KeyMap.find_assign_self, KeyMap.find_assign_self⟩

/-! ### Steps of the server -/

theorem LoggedIn.server {e : Event} {server : State} (h : LoggedIn s)
    (hs : RIOServer.Step cfg s.server e server) : LoggedIn { s with server } := by
  refine ⟨RIOServer.refCounted_step h.refCounted hs, h.keyed, h.logins, fun p hp pc hins => ?_,
    h.bySession, h.byPCId⟩
  obtain ⟨hdrawn, hem⟩ := h.sessions p hp pc hins
  exact ⟨hdrawn.trans hs.nextSessionId_le, emplaces_step hdrawn hem hs⟩

theorem LoggedIn.belongs_server {e : Event} {server : State} (h : LoggedIn s)
    (hs : RIOServer.Step cfg s.server e server) :
    Belongs { s with server } ↔ Belongs s ∧ keepsPlayers s (.server e) = true := by
  have hmem : ∀ pc, s.registry.manager.sessionIdToPCMap.find pc.session = some pc →
      (pc.session ∈ server.shared.sessionMap ↔
        pc.session ∈ s.server.shared.sessionMap ∧ erasedSession s.server e ≠ some pc.session) := by
    intro pc hf
    obtain ⟨p, hp, hins⟩ := ((h.bySession pc).mp hf).exists_mem
    exact mem_sessionMap_step (h.sessions p hp pc hins).2 hs
  rw [(h.server hs).belongs_iff, h.belongs_iff]
  simp only [keepsPlayers, Option.all_eq_true, decide_eq_true_eq]
  constructor
  · intro hb
    refine ⟨fun pc hf => ((hmem pc hf).mp (hb pc hf)).1, fun sid hsid => ?_⟩
    by_contra hne
    obtain ⟨pc, hf⟩ := Option.ne_none_iff_exists'.mp hne
    obtain rfl := h.keyed.session sid pc hf
    exact ((hmem pc hf).mp (hb pc hf)).2 hsid
  · rintro ⟨hb, hkeeps⟩ pc hf
    refine (hmem pc hf).mpr ⟨hb pc hf, fun heq => ?_⟩
    cases hf.symm.trans (hkeeps pc.session heq)

/-! ### Steps of `InsertPC` -/

theorem LoggedIn.login (h : LoggedIn s) (hsid : sid ∈ s.server.shared.sessionMap) :
    LoggedIn { s with
      registry := { s.registry with
        calls := s.registry.calls ++ [.insertBySessionId ⟨sid, id⟩] } } := by
  have hbegun : ∀ pc, Begun (s.registry.calls ++ [.insertBySessionId ⟨sid, id⟩]) pc ↔
      Begun s.registry.calls pc := fun pc => by simp [Begun]
  refine ⟨h.refCounted, h.keyed, fun p hp => ?_, fun p hp pc hins => ?_,
    fun pc => (h.bySession pc).trans (hbegun pc).symm,
    fun pc hf => (hbegun pc).mpr (h.byPCId pc hf)⟩
  · rcases List.mem_append.mp hp with hp | hp
    · exact h.logins p hp
    · obtain rfl := List.mem_singleton.mp hp
      exact ⟨_, rfl⟩
  · rcases List.mem_append.mp hp with hp | hp
    · exact h.sessions p hp pc hins
    · obtain rfl := List.mem_singleton.mp hp
      obtain rfl := Option.some.inj hins
      refine ⟨Nat.not_lt.mp fun hlt => ?_, h.refCounted.once _ hsid⟩
      exact (h.refCounted.untouched _ hlt).notMem hsid

/-- What has begun after a section had begun before it, or enters the first map with it. -/
theorem begun_advance_iff {m m' : PCManager} {calls : List Position} (hi : calls[i]? = some p)
    (ha : Advanced m p m' q) :
    Begun (calls.set i q) pc ↔ Begun calls pc ∨ p = .insertBySessionId pc := by
  have hp := List.mem_of_getElem? hi
  constructor
  · rintro (hr | hr)
    · rcases List.mem_or_eq_of_mem_set hr with hr | rfl
      · exact .inl (.inl hr)
      · cases ha
        exact .inr rfl
    · rcases List.mem_or_eq_of_mem_set hr with hr | rfl
      · exact .inl (.inr hr)
      · refine .inl (.inl ?_)
        cases ha <;> exact hp
  · rintro (hb | rfl)
    · exact hb.advance hi ha
    · cases ha
      exact .inl (mem_set_self hi)

theorem LoggedIn.advance (h : LoggedIn s) (hi : s.registry.calls[i]? = some p)
    (ha : Advanced s.registry.manager p m' q) :
    LoggedIn { s with registry := ⟨m', s.registry.calls.set i q⟩ } := by
  have hmem : ∀ r ∈ s.registry.calls.set i q, ∃ r' ∈ s.registry.calls, r'.inserts = r.inserts := by
    intro r hr
    rcases List.mem_or_eq_of_mem_set hr with hr | rfl
    · exact ⟨r, hr, rfl⟩
    · exact ⟨p, List.mem_of_getElem? hi, ha.inserts_eq.symm⟩
  refine ⟨h.refCounted, ha.keyed h.keyed, fun r hr => ?_, fun r hr pc hins => ?_, fun pc => ?_,
    fun pc hf => ?_⟩
  · obtain ⟨r', hr', heq⟩ := hmem r hr
    exact heq ▸ h.logins r' hr'
  · obtain ⟨r', hr', heq⟩ := hmem r hr
    exact h.sessions r' hr' pc (heq.trans hins)
  · rw [begun_advance_iff hi ha, ← h.bySession pc]
    obtain ⟨pc₀, hins⟩ := h.logins p (List.mem_of_getElem? hi)
    cases ha with
    | enteredSession hnone =>
      simp only [KeyMap.find_assign_eq_some, Position.insertBySessionId.injEq]
      constructor
      · rintro (⟨-, rfl⟩ | ⟨-, hf⟩)
        · exact .inr rfl
        · exact .inl hf
      · rintro (hf | rfl)
        · refine .inr ⟨fun heq => ?_, hf⟩
          rw [heq, hnone] at hf
          cases hf
        · exact .inl ⟨rfl, rfl⟩
    | enteredId hnone => simp
    | refused hfind => simp
    | _ => cases hins
  · obtain ⟨pc₀, hins⟩ := h.logins p (List.mem_of_getElem? hi)
    refine (begun_advance_iff hi ha).mpr ?_
    cases ha with
    | enteredSession hnone => exact .inl (h.byPCId pc hf)
    | enteredId hnone =>
      rcases KeyMap.find_assign_eq_some.mp hf with ⟨-, rfl⟩ | ⟨-, hf⟩
      · exact .inl (.inl (List.mem_of_getElem? hi))
      · exact .inl (h.byPCId pc hf)
    | refused hfind => exact .inl (h.byPCId pc hf)
    | _ => cases hins

theorem LoggedIn.belongs_advance (h : LoggedIn s) (hi : s.registry.calls[i]? = some p)
    (ha : Advanced s.registry.manager p m' q) :
    Belongs { s with registry := ⟨m', s.registry.calls.set i q⟩ } ↔
      Belongs s ∧ keepsPlayers s (.advance i) = true := by
  rw [(h.advance hi ha).belongs_iff, h.belongs_iff]
  simp only [keepsPlayers, hi]
  obtain ⟨pc₀, hins⟩ := h.logins p (List.mem_of_getElem? hi)
  cases ha with
  | @enteredSession pc hnone =>
    rw [decide_eq_true_eq]
    constructor
    · intro hb
      refine ⟨fun pc' hf => hb pc' ?_, hb pc KeyMap.find_assign_self⟩
      refine (KeyMap.find_assign_of_ne fun heq => ?_).trans hf
      rw [heq, hnone] at hf
      cases hf
    · rintro ⟨hb, hpc⟩ pc' hf
      rcases KeyMap.find_assign_eq_some.mp hf with ⟨-, rfl⟩ | ⟨-, hf⟩
      · exact hpc
      · exact hb pc' hf
  | enteredId hnone => exact (and_iff_left rfl).symm
  | refused hfind => exact (and_iff_left rfl).symm
  | _ => cases hins

/-! ### Whole runs -/

theorem LoggedIn.step (h : LoggedIn s) (hs : s.step cfg e = some s') :
    LoggedIn s' ∧ (Belongs s' ↔ Belongs s ∧ keepsPlayers s e = true) := by
  cases e with
  | server e =>
    obtain ⟨server, hserver, rfl⟩ := Option.map_eq_some_iff.mp hs
    have hstep := RIOServer.step_cases hserver
    exact ⟨h.server hstep, h.belongs_server hstep⟩
  | login session id =>
    rw [LoginState.step] at hs
    by_cases hsid : session ∈ s.server.shared.sessionMap
    · rw [if_pos hsid] at hs
      obtain rfl := Option.some.inj hs
      exact ⟨h.login hsid, (and_iff_left rfl).symm⟩
    · rw [if_neg hsid] at hs
      cases hs
  | advance i =>
    obtain ⟨registry, hregistry, rfl⟩ := Option.map_eq_some_iff.mp hs
    obtain ⟨p, hi, hrest⟩ := Option.bind_eq_some_iff.mp hregistry
    obtain ⟨⟨m', q⟩, hadv, rfl⟩ := Option.map_eq_some_iff.mp hrest
    exact ⟨h.advance hi (advanced hadv), h.belongs_advance hi (advanced hadv)⟩

theorem LoggedIn.of_init (h : (loginSystem cfg).Init s) : LoggedIn s ∧ Belongs s := by
  obtain ⟨⟨n, k, hserver⟩, hregistry⟩ := h
  have hregistry : s.registry = ⟨.empty, []⟩ := hregistry
  have hlogged : LoggedIn s := by
    refine ⟨hserver ▸ RIOServer.refCounted_initial n k, ?_, fun p hp => ?_, fun p hp => ?_,
      fun pc => ?_, fun pc hf => ?_⟩
    · rw [hregistry]
      exact .empty
    · rw [hregistry] at hp
      cases hp
    · rw [hregistry] at hp
      cases hp
    · rw [hregistry]
      simp [Begun, PCManager.empty]
    · rw [hregistry] at hf
      cases hf
  refine ⟨hlogged, hlogged.belongs_iff.mpr fun pc hf => ?_⟩
  rw [hregistry] at hf
  cases hf

/-- **Every `PC` that is found belongs to a session in the map, and whoever left can log in again,
exactly in the runs in which no session with a `PC` is released** (and none gets its `PC` after its
release). -/
theorem belongs_iff_meets {s₀ : LoginState} (h : (loginSystem cfg).Init s₀)
    (hr : (loginSystem cfg).run s₀ es = some s) :
    Belongs s ∧ LogsInAgain s ↔
      (loginSystem cfg).Meets (fun s e => keepsPlayers s e = true) s₀ es := by
  obtain ⟨hlogged, hbelongs⟩ := LoggedIn.of_init h
  have hend : LoggedIn s :=
    System.Meets.invariant (fun _ _ _ hl _ hs => (hl.step hs).1) System.meets_true hr hlogged
  have hiff := System.holds_iff_meets (P := Belongs) (I := LoggedIn)
    (fun _ _ _ hl hs => (hl.step hs).1) (fun _ _ _ hl hs => (hl.step hs).2) hr hlogged
  constructor
  · rintro ⟨hb, -⟩
    exact (hiff.mp hb).2
  · intro hm
    have hb := hiff.mpr ⟨hbelongs, hm⟩
    exact ⟨hb, hend.logsInAgain hb⟩

/-- The client of session 2 has logged in and is playing. -/
def playing : List LoginEvent :=
  .server (.accept 0 0 [] true) :: (RIOServer.execs 0 7).map .server ++
    [.login 2 7, .advance 0, .advance 0]

/-- It then closes the connection, and the worker releases the session. -/
def left : List LoginEvent :=
  playing ++ [.server (.complete 2 0 []), .server (.dequeue 1 2 0)] ++
    (RIOServer.execs 1 8).map .server

/-- The server before its first session, and nobody logged in. -/
def startState : LoginState := ⟨RIOServer.initialState 1 0, ⟨.empty, []⟩⟩

theorem init_startState : (loginSystem cfg).Init startState := ⟨⟨1, 0, rfl⟩, rfl⟩

/-- While it plays it is found, and belongs to its session. -/
theorem belongs_playing : ∃ s,
    (loginSystem RIOServer.checksumConfig).run startState playing = some s ∧
      s.registry.manager.findPCByPCId 7 = some ⟨2, 7⟩ ∧ Belongs s ∧ LogsInAgain s := by
  obtain ⟨s, hm, hr, hf⟩ := (loginSystem RIOServer.checksumConfig).exists_run playing
    (s := startState) (c := keepsPlayers)
    (f := fun s => decide (s.registry.manager.findPCByPCId 7 = some ⟨2, 7⟩))
    (by decide +kernel)
  exact ⟨s, hr, of_decide_eq_true hf, (belongs_iff_meets init_startState hr).mpr hm⟩

/-- **A player who left is found by both ids, and cannot log in again**: every thread is idle, the
session is out of the map, and `InsertPC` with a fresh session disconnects it. -/
theorem not_belongs_left : ∃ s, (loginSystem RIOServer.checksumConfig).Reachable s ∧
    (∀ t ∈ s.server.threads, t.code = []) ∧ ¬ Belongs s ∧ ¬ LogsInAgain s := by
  obtain ⟨s, hs, hf⟩ := (loginSystem RIOServer.checksumConfig).exists_reachable left
    (s := startState)
    (f := fun s => decide ((∀ t ∈ s.server.threads, t.code = []) ∧
      2 ∉ s.server.shared.sessionMap ∧ s.registry.manager.findPCByPCId 7 = some ⟨2, 7⟩ ∧
      s.registry.manager.findPCBySessionId 3 = none ∧ s.registry.calls = [.inserted ⟨2, 7⟩]))
    init_startState (by decide +kernel)
  obtain ⟨hidle, hmap, hfound, hnew, hcalls⟩ := of_decide_eq_true hf
  refine ⟨s, hs, hidle, fun hb => hmap (hb ⟨2, 7⟩ (.inr ⟨7, hfound⟩)), fun hagain => ?_⟩
  obtain ⟨m, hm, -⟩ := hagain 7 3 (fun p hp pc hins _ => by
    rw [hcalls] at hp
    obtain rfl := List.mem_singleton.mp hp
    obtain rfl := Option.some.inj hins
    exact hmap) hnew
  rw [PCManager.insertPC_of_taken hnew hfound] at hm
  cases hm

end GameServer

end DdingGameServer
