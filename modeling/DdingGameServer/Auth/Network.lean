import DdingGameServer.Auth.Handshake
import DdingGameServer.Common.Tally
/-!
# Network — any number of game servers register

Game servers connect to AuthServer, ask to be registered when they are connected, and are answered;
connections break with what is on its way in them, and AuthServer is told that a client has left.
CLanServer gives a session an id that no session it still knows has, and calls `OnRecv` for a
session up to its `OnClientLeave`; between sessions anything may interleave.

A game server asks once for each of its sessions, so an answer is never about an entry the session
has already, and what AuthServer says is true for as long as the session lasts
(`registers_of_reachable`). What it says it of is another matter: the id is whatever an empty buffer
reads as, and no game server ever takes notice of its answer.
-/

namespace DdingGameServer

namespace Auth

open GameDB

universe u

/-- A game server, as far as it deals with AuthServer. -/
structure GameServer where
  gameServerId : GameServerId
  client : AuthClient
  crashed : Bool
  deriving DecidableEq, Repr

/-- A connection between a game server and AuthServer. -/
structure Connection (Buf : Type u) where
  sessionId : SessionId
  /-- Which of the game servers it is. -/
  owner : ℕ
  /-- What is on its way, oldest first. -/
  toServer : List Buf
  toClient : List Buf
  /-- Until `OnClientLeave`. -/
  joined : Bool
  /-- History: the answers that were sent. -/
  answers : List RegisterSuccess

/-- AuthServer, the game servers and their connections. -/
structure Network (Buf : Type u) where
  server : AuthServer
  gameServers : List GameServer
  connections : List (Connection Buf)

inductive NetworkEvent (Buf : Type u)
  /-- `OnConnectionComplete` of a game server, and `OnClientJoin`, which is empty. -/
  | connect (owner : ℕ) (sessionId : SessionId)
  /-- `OnRecv` of AuthServer, on the `i`-th connection. -/
  | serverReceives (i : ℕ) (receivedBuffer : Buf)
  /-- `OnRecv` of the game server. -/
  | clientReceives (i : ℕ) (outReadBuf : Buf)
  /-- The connection breaks. -/
  | cutOff (i : ℕ)
  /-- `OnClientLeave` of AuthServer. -/
  | clientLeave (i : ℕ)

variable {Buf : Type u} [LanSerializationBuf Buf]

namespace Network

variable (n : Network Buf)

/-- The `i`-th connection replaced. -/
def setConnection (i : ℕ) (c : Connection Buf) : Network Buf :=
  { n with connections := n.connections.set i c }

/-- CLanServer still knows a session of that id. -/
def knows (sessionId : SessionId) : Bool :=
  n.connections.any fun c => c.joined && c.sessionId = sessionId

def connect (owner : ℕ) (sessionId : SessionId) : Option (Network Buf) :=
  match n.gameServers[owner]? with
  | none => none
  | some g =>
    if g.crashed || n.knows sessionId then none
    else some { n with connections := n.connections ++
      [{ sessionId, owner, toServer := [AuthClient.onConnectionComplete], toClient := []
         joined := true, answers := [] }] }

def serverReceives (i : ℕ) (c : Connection Buf) (receivedBuffer : Buf) : Option (Network Buf) :=
  match c.toServer with
  | [] => none
  | sent :: toServer =>
    if c.joined = true ∧ unread receivedBuffer = unread sent then
      match n.server.onRecv c.sessionId receivedBuffer with
      | none => some (n.setConnection i { c with toServer })
      | some (_, r) =>
        some { n.setConnection i
                { c with
                  toServer
                  toClient := c.toClient ++ [r.reply.buffer]
                  answers := c.answers ++ [r.reply] } with server := r.server }
    else none

def clientReceives (i : ℕ) (c : Connection Buf) (outReadBuf : Buf) : Option (Network Buf) :=
  match c.toClient, n.gameServers[c.owner]? with
  | sent :: toClient, some g =>
    if g.crashed = false ∧ unread outReadBuf = unread sent then
      let r := g.client.onRecv outReadBuf
      let g := { g with client := r.client, crashed := r.crashed }
      some { n.setConnection i { c with toClient } with
        gameServers := n.gameServers.set c.owner g }
    else none
  | _, _ => none

def cutOff (i : ℕ) (c : Connection Buf) : Network Buf :=
  n.setConnection i { c with toServer := [], toClient := [] }

def clientLeave (i : ℕ) (c : Connection Buf) : Option (Network Buf) :=
  if c.joined then
    some { n.setConnection i { c with toServer := [], joined := false } with
      server := n.server.onGameServerDisconnected c.sessionId }
  else none

/-- One step. -/
def step : NetworkEvent Buf → Option (Network Buf)
  | .connect owner sessionId => n.connect owner sessionId
  | .serverReceives i receivedBuffer =>
    n.connections[i]?.bind fun c => n.serverReceives i c receivedBuffer
  | .clientReceives i outReadBuf => n.connections[i]?.bind fun c => n.clientReceives i c outReadBuf
  | .cutOff i => n.connections[i]?.map (n.cutOff i)
  | .clientLeave i => n.connections[i]?.bind (n.clientLeave i)

end Network

/-- **AuthServer and its game servers**, before the first connection. -/
def networks : System (Network Buf) (NetworkEvent Buf) where
  Init n := n.server.gameServerMap = ∅ ∧ n.connections = [] ∧
    ∀ g ∈ n.gameServers, g.client = {} ∧ g.crashed = false
  step n := n.step

/-! ## What is expected, and what is not -/

/-- **What registration comes to.** -/
structure Registers (n : Network Buf) : Prop where
  unique : UniqueIds n.server
  /-- A session is answered at most once. -/
  once : ∀ c ∈ n.connections, c.answers.length ≤ 1
  /-- The sessions in the map are those AuthServer knows and has said yes to. -/
  truthful : ∀ s, s ∈ n.server.gameServerMap ↔
    ∃ c ∈ n.connections, c.joined = true ∧ c.sessionId = s ∧ c.answers = [⟨true⟩]
  /-- The ids are what empty buffers read as. -/
  misread : ∀ s g, n.server.gameServerMap.lookup s = some g →
    ∃ b : Buf, unread b = [] ∧ (readUInt16 b).1 = g
  /-- So where they all read alike, one game server is registered at a time. -/
  alone : (∀ b b' : Buf, unread b = [] → unread b' = [] → (readUInt16 b).1 = (readUInt16 b').1) →
    ∀ s s', s ∈ n.server.gameServerMap → s' ∈ n.server.gameServerMap → s = s'
  /-- Yes or no, a game server is as it was. -/
  unheard : ∀ g ∈ n.gameServers, g.client = {} ∧ g.crashed = false

variable {n n' : Network Buf} {c c' : Connection Buf} {i : ℕ} {s : SessionId}

/-- A connection through which AuthServer has said yes to the session, and still knows it. -/
def Connection.Accepted (s : SessionId) (c : Connection Buf) : Prop :=
  c.joined = true ∧ c.sessionId = s ∧ c.answers = [⟨true⟩]

/-- What is on its way in a connection: the one request, and answers. -/
structure Connection.Placed (c : Connection Buf) : Prop where
  asks : c.toServer = [] ∨ (c.toServer = [AuthClient.onConnectionComplete] ∧ c.answers = [])
  once : c.answers.length ≤ 1
  replies : ∀ b ∈ c.toClient, ∃ r : RegisterSuccess, b = r.buffer

/-- **The invariant.** -/
structure Sound (n : Network Buf) : Prop where
  unique : UniqueIds n.server
  apart : ∀ (i j : ℕ) (c d : Connection Buf), n.connections[i]? = some c →
    n.connections[j]? = some d → c.joined = true → d.joined = true → c.sessionId = d.sessionId →
      i = j
  placed : ∀ c ∈ n.connections, c.Placed
  truthful : ∀ s, s ∈ n.server.gameServerMap ↔ ∃ c ∈ n.connections, c.Accepted s
  misread : ∀ s g, n.server.gameServerMap.lookup s = some g →
    ∃ b : Buf, unread b = [] ∧ (readUInt16 b).1 = g
  unheard : ∀ g ∈ n.gameServers, g.client = {} ∧ g.crashed = false

/-! ## One connection among the others -/

omit [LanSerializationBuf Buf] in
/-- Some connection is accepted: the one that was replaced, or another. -/
theorem exists_accepted_set {l : List (Connection Buf)} (h : l[i]? = some c) :
    (∃ d ∈ l.set i c', d.Accepted s) ↔
      c'.Accepted s ∨ ∃ j, j ≠ i ∧ ∃ d, l[j]? = some d ∧ d.Accepted s := by
  have hlt : i < l.length := (List.getElem?_eq_some_iff.mp h).1
  constructor
  · rintro ⟨d, hd, haccepted⟩
    obtain ⟨j, hj⟩ := List.mem_iff_getElem?.mp hd
    rcases getElem?_set_eq_some hj with ⟨-, rfl⟩ | ⟨hij, hj⟩
    · exact .inl haccepted
    · exact .inr ⟨j, hij, d, hj, haccepted⟩
  · rintro (haccepted | ⟨j, hij, d, hj, haccepted⟩)
    · exact ⟨c', List.mem_set hlt c', haccepted⟩
    · exact ⟨d, List.mem_of_getElem? ((List.getElem?_set_ne (Ne.symm hij)).trans hj), haccepted⟩

omit [LanSerializationBuf Buf] in
theorem exists_accepted_iff {l : List (Connection Buf)} (h : l[i]? = some c) :
    (∃ d ∈ l, d.Accepted s) ↔
      c.Accepted s ∨ ∃ j, j ≠ i ∧ ∃ d, l[j]? = some d ∧ d.Accepted s := by
  have hset : l.set i c = l := by
    obtain ⟨hlt, rfl⟩ := List.getElem?_eq_some_iff.mp h
    exact List.set_getElem_self hlt
  have hiff : (∃ d ∈ l.set i c, d.Accepted s) ↔ _ := exists_accepted_set h
  rwa [hset] at hiff

omit [LanSerializationBuf Buf] in
theorem RegisterSuccess.eq_of_isConnected {r : RegisterSuccess} (h : r.isConnected = true) :
    r = ⟨true⟩ := by
  cases r
  exact congrArg RegisterSuccess.mk h

/-- **An answer leaves a game server as it is.** -/
theorem AuthClient.onRecv_reply [LawfulLanSerializationBuf Buf] {client : AuthClient} {b : Buf}
    (r : RegisterSuccess) (h : unread b = unread (r.buffer : Buf)) :
    client.onRecv b = ⟨false, client, [], false⟩ := by
  rw [r.unread_buffer] at h
  have htype : (readUInt16 b).1 = auth2GameRegisterSuccess := by
    rw [LawfulLanSerializationBuf.readUInt16_fst h, UInt16.ofNat_toNat]
  have hother : auth2GameRegisterSuccess ≠ game2AuthRegister := by decide
  simp only [AuthClient.onRecv, htype, hother, if_false]

namespace Sound

/-- Sessions stay apart where a connection is replaced that keeps its id. -/
theorem apart_set (h : Sound n) (hi : n.connections[i]? = some c)
    (hid : c'.sessionId = c.sessionId) (hjoined : c'.joined = true → c.joined = true) :
    ∀ (j k : ℕ) (d e : Connection Buf), (n.connections.set i c')[j]? = some d →
      (n.connections.set i c')[k]? = some e → d.joined = true → e.joined = true →
        d.sessionId = e.sessionId → j = k := by
  intro j k d e hj hk hd he hsame
  rcases getElem?_set_eq_some hj with ⟨rfl, rfl⟩ | ⟨-, hj'⟩
  · rcases getElem?_set_eq_some hk with ⟨rfl, -⟩ | ⟨-, hk'⟩
    · rfl
    · exact h.apart _ k c e hi hk' (hjoined hd) he (hid.symm.trans hsame)
  · rcases getElem?_set_eq_some hk with ⟨rfl, rfl⟩ | ⟨-, hk'⟩
    · exact h.apart j _ d c hj' hi hd (hjoined he) (hsame.trans hid)
    · exact h.apart j k d e hj' hk' hd he hsame

/-- And each connection is as it should be. -/
theorem placed_set (h : Sound n) (hc : c'.Placed) : ∀ d ∈ n.connections.set i c', d.Placed :=
  fun d hd => (List.mem_or_eq_of_mem_set hd).elim (h.placed d) fun heq => heq ▸ hc

/-- **No other session has the id of one that AuthServer knows.** -/
theorem not_accepted_other (h : Sound n) (hi : n.connections[i]? = some c)
    (hjoined : c.joined = true) {j : ℕ} (hij : j ≠ i) {d : Connection Buf}
    (hj : n.connections[j]? = some d) : ¬ d.Accepted c.sessionId := fun haccepted =>
  hij (h.apart j i d c hj hi haccepted.1 hjoined haccepted.2.1)

/-- A connection whose session keeps its standing. -/
theorem setConnection (h : Sound n) (hi : n.connections[i]? = some c) (hc : c'.Placed)
    (hid : c'.sessionId = c.sessionId) (hjoined : c'.joined = c.joined)
    (hanswers : c'.answers = c.answers) : Sound (n.setConnection i c') where
  unique := h.unique
  apart := h.apart_set hi hid hjoined.symm.trans
  placed := h.placed_set hc
  truthful s := by
    have hsame : c'.Accepted s ↔ c.Accepted s := by
      simp only [Connection.Accepted, hid, hjoined, hanswers]
    exact (h.truthful s).trans ((exists_accepted_iff hi).trans
      (hsame.symm.or Iff.rfl |>.trans (exists_accepted_set hi).symm))
  misread := h.misread
  unheard := h.unheard

/-! ## The steps -/

/-- A new session is none that the map has. -/
theorem connect {owner : ℕ} (h : Sound n) (hstep : n.connect owner s = some n') : Sound n' := by
  unfold Network.connect at hstep
  split at hstep
  · cases hstep
  · split at hstep
    · cases hstep
    · rename_i g hg hfresh
      cases hstep
      have hnew : ∀ d ∈ n.connections, d.joined = true → d.sessionId ≠ s := by
        intro d hd hjoined hsame
        have hknows : n.knows s = true := List.any_eq_true.mpr ⟨d, hd, by simp [hjoined, hsame]⟩
        exact hfresh (by simp [hknows])
      refine ⟨h.unique, fun j k d e hj hk hd he hsame => ?_, fun d hd => ?_, fun t => ?_, h.misread,
        h.unheard⟩
      · rcases getElem?_concat_eq_some hj with hj | ⟨rfl, rfl⟩
        · rcases getElem?_concat_eq_some hk with hk | ⟨-, rfl⟩
          · exact h.apart j k d e hj hk hd he hsame
          · exact absurd hsame (hnew d (List.mem_of_getElem? hj) hd)
        · rcases getElem?_concat_eq_some hk with hk | ⟨rfl, -⟩
          · exact absurd hsame.symm (hnew e (List.mem_of_getElem? hk) he)
          · rfl
      · rcases List.mem_append.mp hd with hd | hd
        · exact h.placed d hd
        · obtain rfl := List.mem_singleton.mp hd
          exact ⟨.inr ⟨rfl, rfl⟩, Nat.zero_le 1, by simp⟩
      · simp [h.truthful t, Connection.Accepted, or_and_right, exists_or]

variable [LawfulLanSerializationBuf Buf]

/-- **A request is answered truthfully**, under an id that nobody sent. -/
theorem serverReceives {receivedBuffer : Buf} (h : Sound n) (hi : n.connections[i]? = some c)
    (hstep : n.serverReceives i c receivedBuffer = some n') : Sound n' := by
  have hplaced := h.placed c (List.mem_of_getElem? hi)
  unfold Network.serverReceives at hstep
  rcases hplaced.asks with hnone | ⟨hsent, hanswers⟩
  · rw [hnone] at hstep
    cases hstep
  · rw [hsent] at hstep
    dsimp only at hstep
    split at hstep
    case isFalse => cases hstep
    case isTrue hreceived =>
      obtain ⟨hjoined, hunread⟩ := hreceived
      obtain ⟨rest, hrest, hread⟩ : ∃ rest : Buf, unread rest = [] ∧
          n.server.onRecv c.sessionId receivedBuffer = some ((readUInt16 rest).1,
            n.server.gameServerRegisterRequest c.sessionId (readUInt16 rest).1) :=
        onRecv_onConnectionComplete hunread
      rw [hread] at hstep
      cases hstep
      have hout : c.sessionId ∉ n.server.gameServerMap := by
        intro hmem
        obtain ⟨d, hd, haccepted⟩ := (h.truthful _).mp hmem
        obtain ⟨j, hj⟩ := List.mem_iff_getElem?.mp hd
        by_cases hij : j = i
        · subst hij
          obtain rfl := Option.some.inj (hi.symm.trans hj)
          rw [haccepted.2.2] at hanswers
          cases hanswers
        · exact h.not_accepted_other hi hjoined hij hj haccepted
      have hopen : ∀ t, ¬ c.Accepted t := fun t haccepted => by
        rw [haccepted.2.2] at hanswers
        cases hanswers
      have hplaced' : ∀ r : RegisterSuccess, ({ c with
          toServer := [], toClient := c.toClient ++ [r.buffer],
          answers := c.answers ++ [r] } : Connection Buf).Placed := by
        refine fun r => ⟨.inl rfl, by simp [hanswers], fun b hb => ?_⟩
        rcases List.mem_append.mp hb with hb | hb
        · exact hplaced.replies b hb
        · exact ⟨r, List.mem_singleton.mp hb⟩
      refine ⟨h.unique.register _ _, h.apart_set hi rfl fun hd => hd, h.placed_set (hplaced' _),
        fun t => ?_, fun t g hg => ?_, h.unheard⟩
      · refine Iff.trans ?_ (exists_accepted_set hi).symm
        rcases held_or_free n.server (readUInt16 rest).1 with ⟨s', hs'⟩ | hfree
        · obtain ⟨hreply, hserver⟩ := registerRequest_of_held (s := c.sessionId) hs'
          rw [hserver, h.truthful t, exists_accepted_iff hi]
          refine or_congr_left (iff_of_false (hopen t) fun haccepted => ?_)
          have hyes := haccepted.2.2
          simp only [hanswers, List.nil_append, List.cons.injEq, and_true] at hyes
          rw [hyes] at hreply
          cases hreply
        · obtain ⟨hreply, hserver⟩ := registerRequest_of_free (s := c.sessionId) hfree
          rw [hserver]
          by_cases ht : t = c.sessionId
          · subst ht
            refine iff_of_true ?_ (.inl ⟨hjoined, rfl, ?_⟩)
            · exact AList.lookup_isSome.mp
                (Option.isSome_of_eq_some (EntryMap.lookup_insertNew_self hout))
            · rw [hanswers, List.nil_append, RegisterSuccess.eq_of_isConnected hreply]
          · rw [← AList.lookup_isSome, EntryMap.lookup_insertNew_of_ne ht, AList.lookup_isSome,
              h.truthful t, exists_accepted_iff hi]
            exact or_congr_left (iff_of_false (hopen t) fun haccepted => ht haccepted.2.1.symm)
      · rcases held_or_free n.server (readUInt16 rest).1 with ⟨s', hs'⟩ | hfree
        · rw [(registerRequest_of_held hs').2] at hg
          exact h.misread t g hg
        · rw [(registerRequest_of_free hfree).2] at hg
          rcases EntryMap.lookup_of_lookup_insertNew hg with ⟨-, rfl⟩ | hold
          · exact ⟨rest, hrest, rfl⟩
          · exact h.misread t g hold

/-- Answers reach no one. -/
theorem clientReceives {outReadBuf : Buf} (h : Sound n) (hi : n.connections[i]? = some c)
    (hstep : n.clientReceives i c outReadBuf = some n') : Sound n' := by
  have hplaced := h.placed c (List.mem_of_getElem? hi)
  unfold Network.clientReceives at hstep
  split at hstep
  · rename_i sent toClient g hc hg
    split at hstep
    · rename_i hreceived
      obtain ⟨hrunning, hunread⟩ := hreceived
      cases hstep
      obtain ⟨r, rfl⟩ := hplaced.replies sent (hc ▸ List.mem_cons_self)
      have hkept : Sound (n.setConnection i { c with toClient }) :=
        h.setConnection hi ⟨hplaced.asks, hplaced.once, fun b hb =>
          hplaced.replies b (hc ▸ List.mem_cons_of_mem _ hb)⟩ rfl rfl rfl
      refine ⟨hkept.unique, hkept.apart, hkept.placed, hkept.truthful, hkept.misread, ?_⟩
      intro g' hg'
      rcases List.mem_or_eq_of_mem_set hg' with hmem | rfl
      · exact h.unheard g' hmem
      · rw [AuthClient.onRecv_reply r hunread]
        exact ⟨(h.unheard g (List.mem_of_getElem? hg)).1, rfl⟩
    · cases hstep
  · cases hstep

omit [LawfulLanSerializationBuf Buf] in
/-- What was on its way is gone. -/
theorem cutOff (h : Sound n) (hi : n.connections[i]? = some c) : Sound (n.cutOff i c) :=
  h.setConnection hi ⟨.inl rfl, (h.placed c (List.mem_of_getElem? hi)).once, by simp⟩ rfl rfl rfl

omit [LawfulLanSerializationBuf Buf] in
/-- The session goes, and its entry, if it has one. -/
theorem clientLeave (h : Sound n) (hi : n.connections[i]? = some c)
    (hstep : n.clientLeave i c = some n') : Sound n' := by
  have hplaced := h.placed c (List.mem_of_getElem? hi)
  unfold Network.clientLeave at hstep
  split at hstep
  · rename_i hjoined
    cases hstep
    refine ⟨h.unique.disconnect _, h.apart_set hi rfl (fun hd => by cases hd),
      h.placed_set ⟨.inl rfl, hplaced.once, hplaced.replies⟩, fun t => ?_,
      fun t g hg => h.misread t g (lookup_of_disconnected hg).2, h.unheard⟩
    refine Iff.trans ?_ (exists_accepted_set hi).symm
    by_cases ht : t = c.sessionId
    · subst ht
      refine iff_of_false (AList.lookup_eq_none.mp lookup_disconnected_self) ?_
      rintro (haccepted | ⟨j, hij, d, hj, haccepted⟩)
      · cases haccepted.1
      · exact h.not_accepted_other hi hjoined hij hj haccepted
    · rw [← AList.lookup_isSome, lookup_disconnected_of_ne ht, AList.lookup_isSome, h.truthful t,
        exists_accepted_iff hi]
      refine or_congr_left (iff_of_false (fun haccepted => ht haccepted.2.1.symm) ?_)
      rintro ⟨hj, -⟩
      cases hj
  · cases hstep

/-- **Each step keeps what is expected.** -/
theorem step {e : NetworkEvent Buf} (h : Sound n) (hstep : n.step e = some n') : Sound n' := by
  cases e with
  | connect owner sessionId => exact h.connect hstep
  | serverReceives i receivedBuffer =>
    obtain ⟨c, hi, hc⟩ := Option.bind_eq_some_iff.mp hstep
    exact h.serverReceives hi hc
  | clientReceives i outReadBuf =>
    obtain ⟨c, hi, hc⟩ := Option.bind_eq_some_iff.mp hstep
    exact h.clientReceives hi hc
  | cutOff i =>
    obtain ⟨c, hi, rfl⟩ := Option.map_eq_some_iff.mp hstep
    exact h.cutOff hi
  | clientLeave i =>
    obtain ⟨c, hi, hc⟩ := Option.bind_eq_some_iff.mp hstep
    exact h.clientLeave hi hc

omit [LawfulLanSerializationBuf Buf] in
theorem init (h : networks.Init n) : Sound n := by
  obtain ⟨hmap, hnone, hclients⟩ := h
  refine ⟨.of_empty hmap, by simp [hnone], by simp [hnone], by simp [hnone, hmap], ?_, hclients⟩
  intro s g hg
  rw [hmap, AList.lookup_empty] at hg
  cases hg

omit [LawfulLanSerializationBuf Buf] in
theorem registers (h : Sound n) : Registers n where
  unique := h.unique
  once c hc := (h.placed c hc).once
  truthful := h.truthful
  misread := h.misread
  alone hread s s' hs hs' := by
    obtain ⟨g, hg⟩ := Option.isSome_iff_exists.mp (AList.lookup_isSome.mpr hs)
    obtain ⟨g', hg'⟩ := Option.isSome_iff_exists.mp (AList.lookup_isSome.mpr hs')
    obtain ⟨b, hb, rfl⟩ := h.misread s g hg
    obtain ⟨b', hb', rfl⟩ := h.misread s' g' hg'
    rw [hread b' b hb' hb] at hg'
    exact h.unique s s' _ hg hg'
  unheard := h.unheard

end Sound

/-! ## Whole runs -/

/-- **In any run of AuthServer and its game servers**, what AuthServer has said yes to is what it
has, each session is answered once at most, and nothing comes of it on the other side. -/
theorem registers_of_reachable [LawfulLanSerializationBuf Buf] (h : networks.Reachable n) :
    Registers n :=
  Sound.registers (h.invariant (P := Sound) (fun _ => Sound.init) fun _ _ _ hn _ hs => hn.step hs)

/-- **Two game servers connect**: both are 0 to AuthServer, so the second is refused, and neither
hears of it. -/
theorem registers_two : ∃ n : Network (List UInt8), networks.Reachable n ∧
    n.connections.map (·.answers) = [[⟨true⟩], [⟨false⟩]] ∧ Registers n := by
  have hinit : networks.Init (⟨⟨∅, ∅⟩, [⟨10, {}, false⟩, ⟨20, {}, false⟩], []⟩ :
      Network (List UInt8)) := ⟨rfl, rfl, by simp⟩
  obtain ⟨n, hn, hanswers⟩ := System.exists_reachable networks
    [.connect 0 1, .connect 1 2, .serverReceives 0 (toBytes 2 40000),
      .serverReceives 1 (toBytes 2 40000), .clientReceives 0 (toBytes 2 30000 ++ [1]),
      .clientReceives 1 (toBytes 2 30000 ++ [0])]
    (f := fun n => decide (n.connections.map (·.answers) = [[⟨true⟩], [⟨false⟩]])) hinit
    (by decide +kernel)
  exact ⟨n, hn, of_decide_eq_true hanswers, registers_of_reachable hn⟩

end Auth

end DdingGameServer
