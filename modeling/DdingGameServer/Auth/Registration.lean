import DdingGameServer.Common.EntryMap
import DdingGameServer.Common.System
/-!
# Registration — which session is which game server

AuthServer maps the sessions of its LAN side to the ids of the game servers behind them. A request
looks through the map for its id and refuses it where it finds one, so no two sessions have the same
id, and a disconnect frees the id it takes away (`disconnects_of_reachable`). The answer is made of
that search alone: it takes the session's own entry for another's, and the insertion behind it does
nothing for a session that has an entry. It is true exactly where the session has none, or another
holds the id (`truthful_iff`).
-/

namespace DdingGameServer

namespace Auth

abbrev SessionId := UInt64

abbrev UserId := UInt64

abbrev GameServerId := UInt16

/-- `UserInfo`, with its defaults. -/
structure UserInfo where
  userId : UserId := 0
  nowInServerId : GameServerId := 0
  deriving DecidableEq, Repr

/-- `AuthServer`: the maps its LAN handlers use. -/
structure AuthServer where
  userInfoMap : EntryMap UserId UserInfo
  gameServerMap : EntryMap SessionId GameServerId

/-- `RegisterSuccess` of `AuthProtocol`, the answer to a request. -/
structure RegisterSuccess where
  isConnected : Bool
  deriving DecidableEq, Repr

/-- What a request leads to: the server it leaves, the answer that is sent, and what is printed. -/
structure Registered where
  server : AuthServer
  reply : RegisterSuccess
  output : List String

namespace AuthServer

/-- `GameServerRegisterRequest`. -/
def gameServerRegisterRequest (a : AuthServer) (sessionId : SessionId)
    (gameServerId : GameServerId) : Registered :=
  if a.gameServerMap.anyValue fun id => id = gameServerId then
    { server := a
      reply := ⟨false⟩
      output := ["Duplicated game server id : " ++ toString gameServerId] }
  else
    { server := { a with gameServerMap := a.gameServerMap.insertNew sessionId gameServerId }
      reply := ⟨true⟩
      output := [] }

/-- `OnGameServerDisconnected`. -/
def onGameServerDisconnected (a : AuthServer) (sessionId : SessionId) : AuthServer :=
  match a.gameServerMap.lookup sessionId with
  | none => a
  | some disconnectedServerId =>
    { gameServerMap := a.gameServerMap.erase sessionId
      userInfoMap := a.userInfoMap.eraseWhere fun info =>
        info.nowInServerId = disconnectedServerId }

end AuthServer

inductive AuthEvent
  /-- A registration request of `sessionId`. -/
  | register (sessionId : SessionId) (gameServerId : GameServerId)
  /-- `OnClientLeave` of the LAN server. -/
  | clientLeave (sessionId : SessionId)
  deriving DecidableEq, Repr

/-- **AuthServer**, its requests and disconnects in any order. -/
def authServers : System AuthServer AuthEvent where
  Init a := a.gameServerMap = ∅
  step a e :=
    match e with
    | .register sessionId gameServerId =>
      some (a.gameServerRegisterRequest sessionId gameServerId).server
    | .clientLeave sessionId => some (a.onGameServerDisconnected sessionId)

/-- No two sessions are mapped to the same id. -/
def UniqueIds (a : AuthServer) : Prop :=
  ∀ s s' g, a.gameServerMap.lookup s = some g → a.gameServerMap.lookup s' = some g → s = s'

/-- **What a disconnect of `sessionId` is to do**: its entry goes and no other, the users of its id
go and no others, and any session without an entry can register the id it had. -/
structure Disconnects (a : AuthServer) (sessionId : SessionId) (a' : AuthServer) : Prop where
  gone : a'.gameServerMap.lookup sessionId = none
  others : ∀ s, s ≠ sessionId → a'.gameServerMap.lookup s = a.gameServerMap.lookup s
  users : ∀ userId info, a'.userInfoMap.lookup userId = some info ↔
    a.userInfoMap.lookup userId = some info ∧
      a.gameServerMap.lookup sessionId ≠ some info.nowInServerId
  free : ∀ g, a.gameServerMap.lookup sessionId = some g → ∀ s, s ∉ a'.gameServerMap →
    (a'.gameServerRegisterRequest s g).reply.isConnected = true ∧
      (a'.gameServerRegisterRequest s g).server.gameServerMap.lookup s = some g

/-- An answer is true: it says yes exactly where the map has the session at the id. -/
def Truthful (a : AuthServer) : AuthEvent → Prop
  | .register sessionId gameServerId =>
    (a.gameServerRegisterRequest sessionId gameServerId).reply.isConnected = true ↔
      (a.gameServerRegisterRequest sessionId gameServerId).server.gameServerMap.lookup sessionId =
        some gameServerId
  | .clientLeave _ => True

/-- A request comes from a session with no entry, or for an id another session has. -/
def NewOrTaken (a : AuthServer) : AuthEvent → Prop
  | .register sessionId gameServerId => sessionId ∉ a.gameServerMap ∨
      ∃ s, s ≠ sessionId ∧ a.gameServerMap.lookup s = some gameServerId
  | .clientLeave _ => True

variable {a a' : AuthServer} {e : AuthEvent} {es : List AuthEvent} {s s' : SessionId}
  {g : GameServerId}

/-! ## One request -/

/-- **An id that a session holds is refused**, -/
theorem registerRequest_of_held (h : a.gameServerMap.lookup s' = some g) :
    (a.gameServerRegisterRequest s g).reply.isConnected = false ∧
      (a.gameServerRegisterRequest s g).server = a := by
  have hany : a.gameServerMap.anyValue (fun id => id = g) = true :=
    EntryMap.anyValue_iff.mpr ⟨s', g, h, decide_eq_true rfl⟩
  simp only [AuthServer.gameServerRegisterRequest, hany, if_true, and_self]

/-- **any other is granted**, and entered unless the session has an entry. -/
theorem registerRequest_of_free (h : ∀ s', a.gameServerMap.lookup s' ≠ some g) :
    (a.gameServerRegisterRequest s g).reply.isConnected = true ∧
      (a.gameServerRegisterRequest s g).server =
        { a with gameServerMap := a.gameServerMap.insertNew s g } := by
  have hany : a.gameServerMap.anyValue (fun id => id = g) = false := by
    rw [Bool.eq_false_iff]
    intro hany
    obtain ⟨s', g', hs', hg'⟩ := EntryMap.anyValue_iff.mp hany
    rw [of_decide_eq_true hg'] at hs'
    exact h s' hs'
  simp only [AuthServer.gameServerRegisterRequest, hany, Bool.false_eq_true, if_false, and_self]

/-- An id is held or free. -/
theorem held_or_free (a : AuthServer) (g : GameServerId) :
    (∃ s, a.gameServerMap.lookup s = some g) ∨ ∀ s, a.gameServerMap.lookup s ≠ some g := by
  by_cases h : ∃ s, a.gameServerMap.lookup s = some g
  · exact .inl h
  · exact .inr fun s hs => h ⟨s, hs⟩

/-- **Requests keep the ids unique.** -/
theorem UniqueIds.register (h : UniqueIds a) (s : SessionId) (g : GameServerId) :
    UniqueIds (a.gameServerRegisterRequest s g).server := by
  rcases held_or_free a g with ⟨s', hs'⟩ | hfree
  · rwa [(registerRequest_of_held hs').2]
  · rw [(registerRequest_of_free hfree).2]
    intro s₁ s₂ g' (h₁ : (a.gameServerMap.insertNew s g).lookup s₁ = _)
      (h₂ : (a.gameServerMap.insertNew s g).lookup s₂ = _)
    rcases EntryMap.lookup_of_lookup_insertNew h₁ with ⟨rfl, rfl⟩ | hold₁
    · rcases EntryMap.lookup_of_lookup_insertNew h₂ with ⟨rfl, -⟩ | hold₂
      · rfl
      · exact absurd hold₂ (hfree s₂)
    · rcases EntryMap.lookup_of_lookup_insertNew h₂ with ⟨rfl, rfl⟩ | hold₂
      · exact absurd hold₁ (hfree s₁)
      · exact h s₁ s₂ g' hold₁ hold₂

/-! ## One disconnect -/

theorem lookup_disconnected_self :
    (a.onGameServerDisconnected s).gameServerMap.lookup s = none := by
  cases hs : a.gameServerMap.lookup s with
  | none => simp only [AuthServer.onGameServerDisconnected, hs]
  | some g =>
    simp only [AuthServer.onGameServerDisconnected, hs]
    exact AList.lookup_erase ..

theorem lookup_disconnected_of_ne (h : s' ≠ s) :
    (a.onGameServerDisconnected s).gameServerMap.lookup s' = a.gameServerMap.lookup s' := by
  cases hs : a.gameServerMap.lookup s with
  | none => simp only [AuthServer.onGameServerDisconnected, hs]
  | some g =>
    simp only [AuthServer.onGameServerDisconnected, hs]
    exact AList.lookup_erase_ne h

/-- What is mapped after a disconnect was mapped before. -/
theorem lookup_of_disconnected
    (h : (a.onGameServerDisconnected s).gameServerMap.lookup s' = some g) :
    s' ≠ s ∧ a.gameServerMap.lookup s' = some g := by
  by_cases hs : s' = s
  · rw [hs, lookup_disconnected_self] at h
    cases h
  · exact ⟨hs, by rwa [lookup_disconnected_of_ne hs] at h⟩

/-- **Disconnects keep the ids unique.** -/
theorem UniqueIds.disconnect (h : UniqueIds a) (s : SessionId) :
    UniqueIds (a.onGameServerDisconnected s) := fun s₁ s₂ g h₁ h₂ =>
  h s₁ s₂ g (lookup_of_disconnected h₁).2 (lookup_of_disconnected h₂).2

/-- **A disconnect takes away the users of the id, and no others.** -/
theorem lookup_userInfoMap_disconnected {userId : UserId} {info : UserInfo} :
    (a.onGameServerDisconnected s).userInfoMap.lookup userId = some info ↔
      a.userInfoMap.lookup userId = some info ∧
        a.gameServerMap.lookup s ≠ some info.nowInServerId := by
  cases hs : a.gameServerMap.lookup s with
  | none =>
    simp only [AuthServer.onGameServerDisconnected, hs]
    exact (and_iff_left (by simp)).symm
  | some g =>
    simp only [AuthServer.onGameServerDisconnected, hs, EntryMap.lookup_eraseWhere,
      decide_eq_false_iff_not]
    refine and_congr_right fun _ => not_congr ?_
    rw [Option.some.injEq]
    exact eq_comm

/-- **After a disconnect its id is free.** -/
theorem UniqueIds.free_disconnected (h : UniqueIds a) (hs : a.gameServerMap.lookup s = some g) :
    ∀ s', (a.onGameServerDisconnected s).gameServerMap.lookup s' ≠ some g := by
  intro s' hs'
  obtain ⟨hne, hs'⟩ := lookup_of_disconnected hs'
  exact hne (h s' s g hs' hs)

/-- **A disconnect does what it is to do**, where the ids are unique. -/
theorem UniqueIds.disconnects (h : UniqueIds a) (s : SessionId) :
    Disconnects a s (a.onGameServerDisconnected s) := by
  refine ⟨lookup_disconnected_self, fun s' hs' => lookup_disconnected_of_ne hs',
    fun _ _ => lookup_userInfoMap_disconnected, fun g hg s' hs' => ?_⟩
  obtain ⟨hreply, hserver⟩ := registerRequest_of_free (s := s') (h.free_disconnected hg)
  refine ⟨hreply, ?_⟩
  rw [hserver]
  exact EntryMap.lookup_insertNew_self hs'

/-! ## Whole runs -/

theorem UniqueIds.of_empty (h : a.gameServerMap = ∅) : UniqueIds a := by
  intro s s' g hs
  rw [h, AList.lookup_empty] at hs
  cases hs

theorem UniqueIds.step (h : UniqueIds a) (hs : authServers.step a e = some a') :
    UniqueIds a' := by
  cases e with
  | register sessionId gameServerId =>
    cases hs
    exact h.register sessionId gameServerId
  | clientLeave sessionId =>
    cases hs
    exact h.disconnect sessionId

/-- **The ids are unique in every reachable state, and a disconnect there does what it is to do**,
whatever users there are. -/
theorem disconnects_of_reachable (h : authServers.Reachable a) (s : SessionId)
    (userInfoMap : EntryMap UserId UserInfo) :
    UniqueIds a ∧ Disconnects { a with userInfoMap := userInfoMap } s
      (AuthServer.onGameServerDisconnected { a with userInfoMap := userInfoMap } s) := by
  have hunique : UniqueIds a := h.invariant (P := UniqueIds) (fun _ hinit => .of_empty hinit)
    fun _ _ _ hu _ hs => hu.step hs
  exact ⟨hunique, UniqueIds.disconnects (a := { a with userInfoMap := userInfoMap }) hunique s⟩

/-- Two game servers, two users, and the first of each leaves. -/
theorem disconnects_two : ∃ a, authServers.Reachable a ∧ a.gameServerMap.lookup 1 = some 10 ∧
    UniqueIds a ∧ Disconnects { a with userInfoMap := [⟨5, 5, 10⟩, ⟨6, 6, 20⟩].toAList } 1
      (AuthServer.onGameServerDisconnected
        { a with userInfoMap := [⟨5, 5, 10⟩, ⟨6, 6, 20⟩].toAList } 1) := by
  have hinit : authServers.Init ⟨∅, ∅⟩ := rfl
  obtain ⟨a, ha, hlookup⟩ := System.exists_reachable authServers
    [.register 1 10, .register 2 20, .register 3 20]
    (f := fun a => decide (a.gameServerMap.lookup 1 = some 10)) hinit (by decide +kernel)
  exact ⟨a, ha, of_decide_eq_true hlookup, disconnects_of_reachable ha 1 _⟩

/-- **An answer is true exactly to a request from a session with no entry, or for an id another
session has.** -/
theorem UniqueIds.truthful (h : UniqueIds a) (e : AuthEvent) :
    Truthful a e ↔ NewOrTaken a e := by
  cases e with
  | clientLeave sessionId => exact Iff.rfl
  | register s g =>
    simp only [Truthful, NewOrTaken]
    rcases held_or_free a g with ⟨s', hs'⟩ | hfree
    · obtain ⟨hreply, hserver⟩ := registerRequest_of_held (s := s) hs'
      rw [hreply, hserver]
      by_cases heq : s' = s
      · subst heq
        refine iff_of_false (by simp [hs']) ?_
        rintro (hnot | ⟨s, hne, hs⟩)
        · rw [← AList.lookup_eq_none, hs'] at hnot
          cases hnot
        · exact hne (h s s' g hs hs')
      · refine iff_of_true ?_ (.inr ⟨s', heq, hs'⟩)
        simp only [Bool.false_eq_true, false_iff]
        exact fun hs => heq (h s' s g hs' hs)
    · obtain ⟨hreply, hserver⟩ := registerRequest_of_free (s := s) hfree
      rw [hreply, hserver]
      simp only [true_iff]
      by_cases hmem : s ∈ a.gameServerMap
      · rw [EntryMap.insertNew_of_mem hmem]
        refine iff_of_false (hfree s) ?_
        rintro (hnot | ⟨s', -, hs'⟩)
        · exact hnot hmem
        · exact hfree s' hs'
      · exact iff_of_true (EntryMap.lookup_insertNew_self hmem) (.inl hmem)

/-- **The answers of a run are true exactly where each is to a session with no entry, or for an id
another session has.** -/
theorem truthful_iff (userInfoMap : EntryMap UserId UserInfo) :
    authServers.Meets Truthful ⟨userInfoMap, ∅⟩ es ↔
      authServers.Meets NewOrTaken ⟨userInfoMap, ∅⟩ es :=
  System.meets_congr (P := UniqueIds) (fun _ _ _ hu hs => hu.step hs)
    (fun _ e hu => hu.truthful e) (.of_empty rfl)

/-- **A session that is 10 asks to be 20**: the answer is yes, and it is still 10. -/
theorem not_truthful_second :
    ¬ authServers.Meets Truthful ⟨∅, ∅⟩ [.register 1 10, .register 1 20] := by
  rintro ⟨-, hrest⟩
  obtain ⟨htruthful, -⟩ := hrest _ rfl
  have hlookup := htruthful.mp (by decide)
  exact absurd hlookup (by decide)

end Auth

end DdingGameServer
