import DdingGameServer.RIOServer.NetBuffers
/-!
# RIOServer — outgoing buffers are returned

Nothing but the end of a broadcast calls `NetBuffer::Free`, and it leaves the buffer a reference.
So no outgoing buffer is ever returned to its pool, and a buffer is unreturned with nobody holding
it from the step on that takes it from its last holder: a `MakeSendStream` that copies it, the
release of a session that has it queued, a `SendPacket` on a released session, or the end of a
broadcast that no session holds. Up to the first such step every buffer is held.
-/

namespace DdingGameServer

namespace RIOServer

variable {cfg : NetConfig} {s s' : State} {e : Event} {n : NetBuffers} {i : ℕ} {sid : SessionId}
  {op : Op} {b : BufferId} {x x' : State × NetBuffers} {ev : SendingEvent}
  {evs : List SendingEvent}

/-! ## Who holds a buffer -/

/-- The buffers a session has in `sendQueue` and `reservedBuffer`, unless it has been released. -/
def NetBuffers.heldBy (n : NetBuffers) (sid : SessionId) (live : Bool) : List BufferId :=
  if live then n.sendQueue sid ++ (n.reservedBuffer sid).toList else []

/-- The buffer of the broadcast a thread is in. -/
def NetBuffers.broadcastOf (n : NetBuffers) (i : ℕ) : List BufferId :=
  (n.broadcasts i).toList.map Broadcasting.buffer

/-- The buffers held by the sessions. -/
def heldBySessions (s : State) (n : NetBuffers) : List BufferId :=
  (List.range (s.nextSessionId + 1)).flatMap fun sid => n.heldBy sid (s.session sid).holdsBuffers

/-- The buffers held by broadcasts. -/
def heldByBroadcasts (s : State) (n : NetBuffers) : List BufferId :=
  (List.range s.threads.length).flatMap n.broadcastOf

/-- **The buffers somebody holds**, once for every holder. -/
def held (x : State × NetBuffers) : List BufferId :=
  heldBySessions x.1 x.2 ++ heldByBroadcasts x.1 x.2

/-- **Every outgoing buffer is returned exactly once**, not while it is held, and as soon as it is
not. -/
structure ReturnedOnce (x : State × NetBuffers) : Prop where
  once : x.2.returned.Nodup
  unheld : ∀ b ∈ x.2.returned, b ∉ held x
  returned : ∀ b < x.2.nextBuffer, b ∉ held x → b ∈ x.2.returned

instance (x : State × NetBuffers) : Decidable (ReturnedOnce x) :=
  decidable_of_iff (x.2.returned.Nodup ∧ (∀ b ∈ x.2.returned, b ∉ held x) ∧
      ∀ b < x.2.nextBuffer, b ∉ held x → b ∈ x.2.returned)
    ⟨fun h => ⟨h.1, h.2.1, h.2.2⟩, fun h => ⟨h.once, h.unheld, h.returned⟩⟩

/-! ## What a step takes, and what it gives -/

/-- The buffers an operation of the thread `i` takes from the session `sid`. A packet sent to a
session that has been released never gets to a holder. -/
def NetBuffers.takes (n : NetBuffers) (i : ℕ) (sid : SessionId) (live : Bool) : Op → List BufferId
  | .enqueue _ => if live || (n.broadcasts i).isSome then [] else [n.nextBuffer]
  | .makeSendStream =>
    if live then
      (n.reservedBuffer sid).toList.filter fun b => isValidPacketSize (n.content b).length
    else []
  | .streamLoop _ (_ + 1) totalSendSize _ =>
    match live, n.sendQueue sid with
    | true, b :: _ =>
      -- the buffer goes into the stream, or in the place of the reserved one
      if n.overflows b totalSendSize then (n.reservedBuffer sid).toList else [b]
    | _, _ => []
  | .onSessionReleased => n.heldBy sid live
  | _ => []

/-- The buffers it gives a holder. -/
def NetBuffers.gives (n : NetBuffers) (i : ℕ) (live : Bool) : Op → List BufferId
  | .enqueue _ =>
    match n.broadcasts i with
    | some broadcast => if live then [broadcast.buffer] else []
    | none => [n.nextBuffer]
  | _ => []

/-- The buffers a step takes from a holder. -/
def taken (x : State × NetBuffers) : SendingEvent → List BufferId
  | .server e =>
    match e, x.1.executing e with
    | .exec i _ _, some (t, op, _) =>
      x.2.takes i t.session (x.1.session t.session).holdsBuffers op
    | _, _ => []
  | .broadcastEnd i => x.2.broadcastOf i
  | _ => []

/-- The buffers a step gives one. -/
def given (x : State × NetBuffers) : SendingEvent → List BufferId
  | .server e =>
    match e, x.1.executing e with
    | .exec i _ _, some (t, op, _) => x.2.gives i (x.1.session t.session).holdsBuffers op
    | _, _ => []
  | .broadcast _ _ => [x.2.nextBuffer]
  | _ => []

/-- **The step takes no buffer from its last holder.** -/
def keepsHolder (x : State × NetBuffers) (ev : SendingEvent) : Bool :=
  (taken x ev).all fun b => (taken x ev).count b < (held x).count b

/-! ## One operation -/

theorem heldBy_enqueue (n : NetBuffers) (sid : SessionId) (b : BufferId) (c : BufferId) :
    ((n.enqueue sid b).heldBy sid true).count c = (n.heldBy sid true).count c + [b].count c := by
  simp only [NetBuffers.heldBy, NetBuffers.enqueue, Function.update_self, if_true,
    List.count_append]
  omega

/-- **An operation moves buffers between holders.** -/
theorem heldBy_execOp (n : NetBuffers) (i : ℕ) (sid : SessionId) (live : Bool) (op : Op)
    (b : BufferId) :
    ((n.execOp i sid op).heldBy sid (if op = .onSessionReleased then false else live)).count b +
      (n.takes i sid live op).count b =
        (n.heldBy sid live).count b + (n.gives i live op).count b := by
  cases op with
  | enqueue packet =>
    simp only [NetBuffers.execOp, NetBuffers.takes, NetBuffers.gives, reduceCtorEq, if_false]
    cases hb : n.broadcasts i with
    | some broadcast =>
      cases live with
      | true =>
        have := heldBy_enqueue n sid broadcast.buffer b
        simpa using this
      | false => simp [NetBuffers.heldBy]
    | none =>
      cases live with
      | true =>
        have := heldBy_enqueue (n.alloc packet) sid n.nextBuffer b
        simpa [NetBuffers.heldBy, NetBuffers.alloc] using this
      | false => simp [NetBuffers.heldBy]
  | makeSendStream =>
    cases live with
    | false => simp [NetBuffers.heldBy, NetBuffers.takes, NetBuffers.gives]
    | true =>
      simp only [NetBuffers.execOp, NetBuffers.takes, NetBuffers.gives, reduceCtorEq, if_false,
        if_true]
      cases hr : n.reservedBuffer sid with
      | none => simp
      | some r =>
        by_cases hvalid : isValidPacketSize (n.content r).length = true
        · simp [NetBuffers.heldBy, hvalid, hr]
        · simp [NetBuffers.heldBy, hvalid, hr]
  | streamLoop ctx count totalSendSize copied =>
    cases live with
    | false => cases count <;> simp [NetBuffers.heldBy, NetBuffers.takes, NetBuffers.gives]
    | true =>
      cases count with
      | zero => simp [NetBuffers.execOp, NetBuffers.takes, NetBuffers.gives]
      | succ count =>
        simp only [NetBuffers.execOp, NetBuffers.takes, NetBuffers.gives, reduceCtorEq, if_false]
        cases hq : n.sendQueue sid with
        | nil => simp [NetBuffers.heldBy]
        | cons c sendQueue =>
          by_cases hover : n.overflows c totalSendSize = true
          · simp [NetBuffers.heldBy, hover, hq, List.count_cons]
            omega
          · simp [NetBuffers.heldBy, hover, hq, List.count_cons]
  | onSessionReleased => simp [NetBuffers.heldBy, NetBuffers.takes, NetBuffers.gives]
  | _ => simp [NetBuffers.execOp, NetBuffers.takes, NetBuffers.gives]

section Frame

variable (n : NetBuffers) (i : ℕ) (sid : SessionId) (op : Op)

/-- Operations of the server neither free a buffer nor end a broadcast. -/
theorem execOp_returned : (n.execOp i sid op).returned = n.returned ∧
    (n.execOp i sid op).broadcasts = n.broadcasts := by
  unfold NetBuffers.execOp
  repeat' split
  all_goals exact ⟨rfl, rfl⟩

theorem broadcastOf_execOp (j : ℕ) : (n.execOp i sid op).broadcastOf j = n.broadcastOf j := by
  rw [NetBuffers.broadcastOf, (execOp_returned n i sid op).2, NetBuffers.broadcastOf]

/-- A buffer that was handed out keeps its count and its content. -/
theorem execOp_old (hb : b < n.nextBuffer) :
    (n.execOp i sid op).refCount b = n.refCount b ∧
      (n.execOp i sid op).content b = n.content b := by
  unfold NetBuffers.execOp
  repeat' split
  all_goals first
    | exact ⟨rfl, rfl⟩
    | exact ⟨Function.update_of_ne hb.ne _ _, Function.update_of_ne hb.ne _ _⟩

/-- What other sessions hold stays. -/
theorem execOp_others {sid' : SessionId} (hne : sid' ≠ sid) :
    (n.execOp i sid op).sendQueue sid' = n.sendQueue sid' ∧
      (n.execOp i sid op).reservedBuffer sid' = n.reservedBuffer sid' := by
  unfold NetBuffers.execOp
  repeat' split
  all_goals simp [NetBuffers.enqueue, NetBuffers.alloc, Function.update_of_ne hne]

end Frame

/-! ## The steps as cases -/

/-- What steps of the server that execute nothing leave alone. -/
structure Unsent (s s' : State) : Prop where
  nextSessionId : s.nextSessionId ≤ s'.nextSessionId
  holdsBuffers : ∀ sid ≤ s.nextSessionId,
    (s'.session sid).holdsBuffers = (s.session sid).holdsBuffers
  threads : s'.threads.length = s.threads.length

theorem Step.unsent (h : Step cfg s e s') (he : ∀ i ok replies, e ≠ .exec i ok replies) :
    Unsent s s' := by
  refine ⟨h.nextSessionId_le, fun sid hsid => ?_, ?_⟩
  · cases h.moves sid with
    | unmoved hse => rw [hse]
    | entered _ hid => exact absurd hsid (Nat.not_le.mpr (hid ▸ lt_newSessionId))
    | called _ _ _ hse => rw [hse]
    | completed _ _ hse => rw [hse]
    | dequeued _ _ _ _ hse => rw [hse]
    | executed ok replies => exact absurd rfl (he _ ok replies)
  · cases h with
    | executed ok replies => exact absurd rfl (he _ ok replies)
    | acceptFailed => rfl
    | completed => rfl
    | _ => exact List.length_set

/-- **A call of `SendPacket` by the thread `i`**, or none at all. -/
structure Sends (cfg : NetConfig) (s : State) (i : ℕ) (packet : NetBuffer) (s' : State) : Prop where
  run : ∃ es, (system cfg).run s es = some s'
  session : s'.session = s.session
  nextSessionId : s'.nextSessionId = s.nextSessionId
  threads : s'.threads = s.threads ∨ ∃ t u, s.threads[i]? = some t ∧
    s'.threads = s.threads.set i u ∧ u.role = t.role ∧ u.code = sendPacket packet

theorem Sends.unsent {packet : NetBuffer} (h : Sends cfg s i packet s') : Unsent s s' := by
  refine ⟨h.nextSessionId.ge, fun sid _ => by rw [h.session], ?_⟩
  rcases h.threads with heq | ⟨t, u, -, heq, -, -⟩
  · rw [heq]
  · rw [heq, List.length_set]

/-- The two calls of a round of `BraodcastToAllSession`. -/
theorem sends_of_run {packet : NetBuffer}
    (h : (system cfg).run s [.getSession i sid, .sendPacket i packet] = some s') :
    Sends cfg s i packet s' := by
  obtain ⟨u, hu, hrest⟩ := System.run_cons_eq_some.mp h
  obtain ⟨v, hv, hrest⟩ := System.run_cons_eq_some.mp hrest
  obtain rfl : v = s' := by simpa using hrest
  have hget := step_cases (show step cfg s (.getSession i sid) = some u from hu)
  have hsend := step_cases (show step cfg u (.sendPacket i packet) = some v from hv)
  cases hget with
  | called _ _ _ hcall => cases hcall
  | @gotSession _ t _ hi hcode hmem =>
    cases hsend with
    | @called _ t' _ code hi' hcode' hne hcall =>
      cases hcall
      have hlt := (List.getElem?_eq_some_iff.mp hi).1
      obtain rfl : { t with session := sid } = t' := by
        simpa [State.setThread, hlt] using hi'
      exact ⟨⟨_, h⟩, rfl, rfl, .inr ⟨t, { t with session := sid, code := sendPacket packet }, hi,
        List.set_set .., rfl, rfl⟩⟩

/-- **A step of the server and its buffers, with what its guard checked.** -/
inductive SendingStep (cfg : NetConfig) (x : State × NetBuffers) :
    SendingEvent → State × NetBuffers → Prop
  | executed {i : ℕ} {ok : Bool} {replies : List NetBuffer} {t : Thread} {op : Op}
      {rest : List Op} {s' : State} :
      x.1.threads[i]? = some t → t.code = op :: rest → Step cfg x.1 (.exec i ok replies) s' →
      SendingStep cfg x (.server (.exec i ok replies)) (s', x.2.execOp i t.session op)
  | unsent {e : Event} {s' : State} :
      (∀ i ok replies, e ≠ .exec i ok replies) → x.2.occupied e = false → Step cfg x.1 e s' →
      SendingStep cfg x (.server e) (s', x.2)
  | begun {i : ℕ} (packet : NetBuffer) :
      x.1.ready i = true → x.2.broadcasts i = none →
      SendingStep cfg x (.broadcast i packet) (x.1, x.2.broadcast i packet x.1.sessionIdList)
  | sent {i : ℕ} {broadcast : Broadcasting} {s' : State} (sessionIdList : List SessionId) :
      x.2.broadcasts i = some broadcast → Sends cfg x.1 i (x.2.content broadcast.buffer) s' →
      SendingStep cfg x (.broadcastTo i)
        (s', x.2.setBroadcast i (some ⟨broadcast.buffer, sessionIdList⟩))
  | ended {i : ℕ} {broadcast : Broadcasting} :
      x.2.broadcasts i = some broadcast →
      SendingStep cfg x (.broadcastEnd i) (x.1, (x.2.free broadcast.buffer).setBroadcast i none)

theorem exists_of_ready (h : s.ready i = true) :
    ∃ t, s.threads[i]? = some t ∧ t.role = .sender ∧ t.code = [] := by
  rw [State.ready, Bool.and_eq_true] at h
  cases hi : s.threads[i]? with
  | none => simp [hi] at h
  | some t => exact ⟨t, rfl, by simpa [hi] using h.2⟩

theorem lt_length_of_ready (h : s.ready i = true) : i < s.threads.length := by
  obtain ⟨t, hi, -⟩ := exists_of_ready h
  exact (List.getElem?_eq_some_iff.mp hi).1

/-- **Every step is one of the cases.** -/
theorem sendingStep_cases (h : sendingStep cfg x ev = some x') : SendingStep cfg x ev x' := by
  cases ev with
  | server e =>
    simp only [sendingStep] at h
    split at h
    · cases h
    rename_i hocc
    obtain ⟨s', hs', rfl⟩ := Option.map_eq_some_iff.mp h
    have hs := step_cases hs'
    cases e with
    | exec i ok replies =>
      obtain ⟨t, op, rest, hi, hcode⟩ := hs.exec_next
      simp only [NetBuffers.follow, executing_eq hi hcode]
      exact .executed hi hcode hs
    | _ => exact .unsent nofun (by simpa using hocc) hs
  | broadcast i packet =>
    simp only [sendingStep] at h
    split at h
    · rename_i hg
      cases h
      exact .begun packet hg.1 hg.2
    · cases h
  | broadcastTo i =>
    simp only [sendingStep] at h
    split at h
    · obtain ⟨⟨buffer, ids⟩, hb, h⟩ := Option.bind_eq_some_iff.mp h
      cases ids with
      | nil => cases h
      | cons sid ids =>
        simp only [broadcastTo] at h
        split at h
        · obtain ⟨s', hrun, rfl⟩ := Option.map_eq_some_iff.mp h
          exact .sent ids hb (sends_of_run hrun)
        · cases h
          exact .sent ids hb ⟨⟨[], rfl⟩, rfl, rfl, .inl rfl⟩
    · cases h
  | broadcastEnd i =>
    simp only [sendingStep] at h
    split at h
    · obtain ⟨n', hn', rfl⟩ := Option.map_eq_some_iff.mp h
      obtain ⟨⟨buffer, ids⟩, hb, h⟩ := Option.bind_eq_some_iff.mp hn'
      cases ids with
      | nil =>
        cases h
        exact .ended hb
      | cons sid ids => cases h
    · cases h

/-! ## What is kept -/

/-- **What is known of the buffers in every state reached.** -/
structure Sound (x : State × NetBuffers) : Prop where
  refCounted : RefCounted x.1
  /-- A buffer that is held was handed out. -/
  fresh : ∀ b ∈ held x, b < x.2.nextBuffer
  /-- Nothing is queued for a session whose id has not been drawn. -/
  undrawn : ∀ sid, x.1.nextSessionId < sid → x.2.heldBy sid true = []
  broadcasting : ∀ i, ∀ b ∈ x.2.broadcastOf i, i < x.1.threads.length ∧ x.2.refCount b = 2
  /-- Every broadcast has a buffer of its own. -/
  apart : ∀ i j, ∀ b ∈ x.2.broadcastOf i, b ∈ x.2.broadcastOf j → i = j
  /-- No buffer was returned. -/
  returned : x.2.returned = []

theorem heldBy_eq_nil (h : n.heldBy sid true = []) (live : Bool) : n.heldBy sid live = [] := by
  cases live with
  | true => exact h
  | false => rfl

theorem mem_broadcastOf {broadcast : Broadcasting} (h : n.broadcasts i = some broadcast) :
    broadcast.buffer ∈ n.broadcastOf i := by
  simp [NetBuffers.broadcastOf, h]

/-- The buffer of a broadcast is held. -/
theorem Sound.mem_held (h : Sound x) (hb : b ∈ x.2.broadcastOf i) : b ∈ held x := by
  refine List.mem_append_right _ (List.mem_flatMap.mpr ⟨i, ?_, hb⟩)
  exact List.mem_range.mpr (h.broadcasting i b hb).1

/-! ## What a step moves -/

/-- Entries at the end of a range that contribute nothing. -/
theorem flatMap_range_eq {α : Type*} {F : ℕ → List α} {m m' : ℕ} (h : m ≤ m')
    (hF : ∀ k, m ≤ k → F k = []) : (List.range m').flatMap F = (List.range m).flatMap F := by
  induction m', h using Nat.le_induction with
  | base => rfl
  | succ m' hle ih =>
    rw [List.range_succ, List.flatMap_append, ih, List.flatMap_singleton, hF m' hle,
      List.append_nil]

/-- **A step that neither queues nor copies a buffer leaves the holders.** -/
theorem held_of_unsent {n' : NetBuffers} (h : Sound x) (hu : Unsent x.1 s')
    (hq : ∀ sid live, n'.heldBy sid live = x.2.heldBy sid live)
    (hb : ∀ i, n'.broadcastOf i = x.2.broadcastOf i) : held (s', n') = held x := by
  have hold : ∀ sid ∈ List.range (x.1.nextSessionId + 1),
      n'.heldBy sid (s'.session sid).holdsBuffers =
        x.2.heldBy sid (x.1.session sid).holdsBuffers := by
    intro sid hmem
    rw [hq, hu.holdsBuffers sid (Nat.lt_succ_iff.mp (List.mem_range.mp hmem))]
  have hsessions : heldBySessions s' n' = heldBySessions x.1 x.2 := by
    rw [heldBySessions, flatMap_range_eq (Nat.succ_le_succ hu.nextSessionId) fun sid hsid => ?_]
    · exact List.flatMap_congr hold
    · rw [hq]
      exact heldBy_eq_nil (h.undrawn sid hsid) _
  have hbroadcasts : heldByBroadcasts s' n' = heldByBroadcasts x.1 x.2 := by
    rw [heldByBroadcasts, hu.threads]
    exact List.flatMap_congr fun i _ => hb i
  exact congrArg₂ (· ++ ·) hsessions hbroadcasts

/-- One broadcast changed. -/
theorem broadcastOf_setBroadcast (n : NetBuffers) (i : ℕ) (broadcast : Option Broadcasting)
    (j : ℕ) : (n.setBroadcast i broadcast).broadcastOf j =
      if j = i then broadcast.toList.map Broadcasting.buffer else n.broadcastOf j := by
  simp only [NetBuffers.broadcastOf, NetBuffers.setBroadcast, Function.update_apply]
  split <;> rfl

theorem count_heldByBroadcasts (hi : i < s.threads.length) (broadcast : Option Broadcasting) :
    (heldByBroadcasts s (n.setBroadcast i broadcast)).count b + (n.broadcastOf i).count b =
      (heldByBroadcasts s n).count b + (broadcast.toList.map Broadcasting.buffer).count b := by
  have hchange := tally_change (f := fun j => (n.broadcastOf j).count b)
    (g := fun j => ((n.setBroadcast i broadcast).broadcastOf j).count b) List.nodup_range
    (List.mem_range.mpr hi) fun j _ hne => by rw [broadcastOf_setBroadcast, if_neg hne]
  rw [broadcastOf_setBroadcast, if_pos rfl] at hchange
  rw [heldByBroadcasts, heldByBroadcasts, count_flatMap_eq_tally, count_flatMap_eq_tally]
  exact hchange

/-- A broadcast that begins adds its buffer. -/
theorem mem_broadcastOf_broadcast {packet : NetBuffer} {sessionIdList : List SessionId} {j : ℕ}
    (h : b ∈ (n.broadcast i packet sessionIdList).broadcastOf j) :
    (j = i ∧ b = n.nextBuffer) ∨ b ∈ n.broadcastOf j := by
  rw [NetBuffers.broadcast, broadcastOf_setBroadcast] at h
  split at h
  · rename_i heq
    exact .inl ⟨heq, List.mem_singleton.mp h⟩
  · exact .inr h

/-- And one that ends takes it away. -/
theorem mem_broadcastOf_end {c : BufferId} {j : ℕ}
    (h : b ∈ ((n.free c).setBroadcast i none).broadcastOf j) : j ≠ i ∧ b ∈ n.broadcastOf j := by
  rw [broadcastOf_setBroadcast] at h
  split at h
  · cases h
  · rename_i hne
    exact ⟨hne, h⟩

/-- A broadcast that goes on keeps its buffer. -/
theorem broadcastOf_goOn {broadcast : Broadcasting} (sessionIdList : List SessionId)
    (hb : n.broadcasts i = some broadcast) (j : ℕ) :
    (n.setBroadcast i (some ⟨broadcast.buffer, sessionIdList⟩)).broadcastOf j =
      n.broadcastOf j := by
  rw [broadcastOf_setBroadcast]
  split
  · rename_i heq
    rw [heq, NetBuffers.broadcastOf, hb]
    rfl
  · rfl

/-- One session changed. -/
theorem count_heldBySessions {n' : NetBuffers} (hsid : sid ≤ s.nextSessionId)
    (hnext : s'.nextSessionId = s.nextSessionId)
    (h : ∀ sid', sid' ≠ sid → n'.heldBy sid' (s'.session sid').holdsBuffers =
      n.heldBy sid' (s.session sid').holdsBuffers) :
    (heldBySessions s' n').count b + (n.heldBy sid (s.session sid).holdsBuffers).count b =
      (heldBySessions s n).count b + (n'.heldBy sid (s'.session sid).holdsBuffers).count b := by
  rw [heldBySessions, heldBySessions, count_flatMap_eq_tally, count_flatMap_eq_tally, hnext]
  refine tally_change (f := fun sid => (n.heldBy sid (s.session sid).holdsBuffers).count b)
    (g := fun sid => (n'.heldBy sid (s'.session sid).holdsBuffers).count b) List.nodup_range
    (List.mem_range.mpr (Nat.lt_succ_of_le hsid)) fun sid' _ hne => ?_
  rw [h sid' hne]

/-- **What a step moves**: every buffer it takes and every buffer it gives, among them the one it
allocates. -/
structure Transfers (x : State × NetBuffers) (ev : SendingEvent) (x' : State × NetBuffers) :
    Prop where
  law : ∀ b, (held x').count b + (taken x ev).count b = (held x).count b + (given x ev).count b
  nextBuffer : x'.2.nextBuffer = x.2.nextBuffer + (given x ev).count x.2.nextBuffer
  /-- What is given was allocated now, or was held. -/
  source : ∀ b ∈ given x ev, b = x.2.nextBuffer ∨ b ∈ held x
  /-- Only a buffer that is allocated in vain is given and taken. -/
  apart : ∀ b ∈ given x ev, b ∈ taken x ev → b = x.2.nextBuffer

/-- Only `OnSessionReleased` ends what a session holds. -/
theorem execOp_holdsBuffers {ok : Bool} {replies : List NetBuffer} {sh : Shared} {se : RIOSession}
    {res : IoPostError} : (execOp cfg op ok replies sid sh se res).session.holdsBuffers =
      if op = .onSessionReleased then false else se.holdsBuffers := by
  unfold execOp
  repeat' split
  all_goals simp_all

/-- An operation gives a buffer it allocates, or the one of the broadcast. -/
theorem mem_gives {live : Bool} (sid : SessionId) (hb : b ∈ n.gives i live op) :
    (b = n.nextBuffer ∨ ∃ broadcast, n.broadcasts i = some broadcast ∧ b = broadcast.buffer) ∧
      (b ∈ n.takes i sid live op → b = n.nextBuffer) := by
  cases op with
  | enqueue packet =>
    simp only [NetBuffers.gives] at hb
    split at hb
    · rename_i broadcast hbroadcast
      split at hb
      · rename_i hlive
        exact ⟨.inr ⟨broadcast, hbroadcast, by simpa using hb⟩, by simp [NetBuffers.takes, hlive]⟩
      · cases hb
    · exact ⟨.inl (by simpa using hb), fun _ => by simpa using hb⟩
  | _ => cases hb

/-- It allocates at most one. -/
theorem execOp_nextBuffer {live : Bool}
    (h : ∀ broadcast, n.broadcasts i = some broadcast → broadcast.buffer < n.nextBuffer) :
    (n.execOp i sid op).nextBuffer = n.nextBuffer + (n.gives i live op).count n.nextBuffer := by
  cases op with
  | enqueue packet =>
    simp only [NetBuffers.execOp, NetBuffers.gives]
    cases hb : n.broadcasts i with
    | none => simp [NetBuffers.enqueue, NetBuffers.alloc]
    | some broadcast =>
      have hne : broadcast.buffer ≠ n.nextBuffer := (h broadcast hb).ne
      cases live <;> simp [NetBuffers.enqueue, hne]
  | makeSendStream =>
    simp only [NetBuffers.execOp]
    repeat' split
    all_goals rfl
  | streamLoop ctx count totalSendSize copied =>
    cases count with
    | zero => rfl
    | succ count =>
      simp only [NetBuffers.execOp]
      split <;> rfl
  | _ => rfl

theorem transfers_executed (h : Sound x) {ok : Bool} {replies : List NetBuffer} {t : Thread}
    {rest : List Op} (hi : x.1.threads[i]? = some t) (hcode : t.code = op :: rest)
    (hs : Step cfg x.1 (.exec i ok replies) s') :
    Transfers x (.server (.exec i ok replies)) (s', x.2.execOp i t.session op) := by
  have hgiven : given x (.server (.exec i ok replies)) =
      x.2.gives i (x.1.session t.session).holdsBuffers op := by
    simp only [given, executing_eq hi hcode]
  have htaken : taken x (.server (.exec i ok replies)) =
      x.2.takes i t.session (x.1.session t.session).holdsBuffers op := by
    simp only [taken, executing_eq hi hcode]
  have hbuffer : ∀ broadcast, x.2.broadcasts i = some broadcast →
      broadcast.buffer < x.2.nextBuffer := fun _ hb => h.fresh _ (h.mem_held (mem_broadcastOf hb))
  refine ⟨fun b => ?_, ?_, fun b hb => ?_, fun b hb hb' => ?_⟩
  · have hsession := hs.exec_session hi hcode
    obtain ⟨hnext, hothers⟩ := hs.exec_others hi
    have hold : ∀ sid', sid' ≠ t.session →
        (x.2.execOp i t.session op).heldBy sid' (s'.session sid').holdsBuffers =
          x.2.heldBy sid' (x.1.session sid').holdsBuffers := by
      intro sid' hne
      obtain ⟨hqueue, hreserved⟩ := execOp_others x.2 i t.session op hne
      rw [hothers sid' hne, NetBuffers.heldBy, hqueue, hreserved, NetBuffers.heldBy]
    have hsessions := count_heldBySessions (b := b)
      (h.refCounted.drawn t (List.mem_of_getElem? hi)) hnext hold
    have hop := heldBy_execOp x.2 i t.session (x.1.session t.session).holdsBuffers op b
    rw [hsession, execOp_holdsBuffers] at hsessions
    have hbroadcasts : heldByBroadcasts s' (x.2.execOp i t.session op) =
        heldByBroadcasts x.1 x.2 := by
      rw [heldByBroadcasts, hs.exec_threads hi hcode, List.length_set]
      exact List.flatMap_congr fun j _ => broadcastOf_execOp _ _ _ _ j
    rw [hgiven, htaken, held, held, List.count_append, List.count_append]
    simp only [hbroadcasts]
    omega
  · rw [hgiven]
    exact execOp_nextBuffer hbuffer
  · rw [hgiven] at hb
    refine (mem_gives t.session hb).1.imp_right fun ⟨broadcast, hbroadcast, heq⟩ => ?_
    rw [heq]
    exact h.mem_held (mem_broadcastOf hbroadcast)
  · rw [hgiven] at hb
    rw [htaken] at hb'
    exact (mem_gives t.session hb).2 hb'

/-- A step that leaves the holders and the pool. -/
theorem Transfers.of_held (hheld : held x' = held x) (hnext : x'.2.nextBuffer = x.2.nextBuffer)
    (hgiven : given x ev = []) (htaken : taken x ev = []) : Transfers x ev x' := by
  refine ⟨fun b => ?_, ?_, fun b hb => ?_, fun b hb _ => ?_⟩
  · rw [hheld, hgiven, htaken]
  · rw [hnext, hgiven]
    rfl
  · rw [hgiven] at hb
    cases hb
  · rw [hgiven] at hb
    cases hb

/-- **Every step moves buffers this way.** -/
theorem Sound.transfers (h : Sound x) (hs : SendingStep cfg x ev x') : Transfers x ev x' := by
  cases hs with
  | executed hi hcode hs => exact transfers_executed h hi hcode hs
  | @unsent e s' he hocc hs =>
    refine .of_held (held_of_unsent h (hs.unsent he) (fun _ _ => rfl) fun _ => rfl) rfl ?_ ?_
    all_goals
      cases e with
      | exec i ok replies => exact absurd rfl (he i ok replies)
      | _ => rfl
  | @begun i packet hi hnone =>
    refine ⟨fun b => ?_, ?_, fun b hb => .inl (List.mem_singleton.mp hb),
      fun b hb _ => List.mem_singleton.mp hb⟩
    · have hbroadcasts := count_heldByBroadcasts (n := x.2) (b := b) (lt_length_of_ready hi)
        (some ⟨x.2.nextBuffer, x.1.sessionIdList⟩)
      rw [NetBuffers.broadcastOf, hnone] at hbroadcasts
      have hheld : (held (x.1, x.2.broadcast i packet x.1.sessionIdList)).count b =
          (heldBySessions x.1 x.2).count b + (heldByBroadcasts x.1
            (x.2.setBroadcast i (some ⟨x.2.nextBuffer, x.1.sessionIdList⟩))).count b :=
        List.count_append
      rw [hheld, held, List.count_append, Nat.add_assoc, Nat.add_assoc]
      exact congrArg _ hbroadcasts
    · simp [given, NetBuffers.broadcast, NetBuffers.setBroadcast, NetBuffers.alloc,
        NetBuffers.addRefCount]
  | @sent i broadcast s' sessionIdList hb hsends =>
    exact .of_held (held_of_unsent h hsends.unsent (fun _ _ => rfl)
      (broadcastOf_goOn sessionIdList hb))
      rfl rfl rfl
  | @ended i broadcast hb =>
    refine ⟨fun b => ?_, rfl, (fun b hb => nomatch hb), (fun b hb => nomatch hb)⟩
    have hbroadcasts := count_heldByBroadcasts (n := x.2) (b := b)
      (h.broadcasting i _ (mem_broadcastOf hb)).1 none
    have hheld : (held (x.1, (x.2.free broadcast.buffer).setBroadcast i none)).count b =
        (heldBySessions x.1 x.2).count b +
          (heldByBroadcasts x.1 (x.2.setBroadcast i none)).count b := List.count_append
    rw [hheld, held, List.count_append, Nat.add_assoc]
    exact congrArg _ hbroadcasts

/-! ## Every state reached is sound -/

theorem sound_initial (h : (sendingSystem cfg).Init x) : Sound x := by
  obtain ⟨⟨numOfWorkerThread, senders, hstart⟩, hempty⟩ := h
  have hheld : held x = [] := by
    rw [held, heldBySessions, heldByBroadcasts, hempty, List.append_eq_nil_iff]
    refine ⟨List.flatMap_eq_nil_iff.mpr fun sid _ => ?_, List.flatMap_eq_nil_iff.mpr fun i _ => rfl⟩
    exact heldBy_eq_nil rfl _
  refine ⟨hstart ▸ refCounted_initial _ _, ?_, ?_, ?_, ?_, ?_⟩
  · simp [hheld]
  all_goals simp [hempty, NetBuffers.empty, NetBuffers.heldBy, NetBuffers.broadcastOf]

/-- Buffers are handed out upwards. -/
theorem Transfers.le (h : Transfers x ev x') : x.2.nextBuffer ≤ x'.2.nextBuffer :=
  (Nat.le_add_right _ _).trans h.nextBuffer.ge

theorem Sound.fresh_step (h : Sound x) (ht : Transfers x ev x') :
    ∀ b ∈ held x', b < x'.2.nextBuffer := by
  intro b hb
  have hlaw := ht.law b
  have hpos := List.count_pos_iff.mpr hb
  by_cases hgiven : b ∈ given x ev
  · rcases ht.source b hgiven with rfl | hold
    · rw [ht.nextBuffer]
      exact Nat.lt_add_of_pos_right (List.count_pos_iff.mpr hgiven)
    · exact (h.fresh b hold).trans_le ht.le
  · rw [List.count_eq_zero_of_not_mem hgiven] at hlaw
    exact (h.fresh b (List.count_pos_iff.mp (by omega))).trans_le ht.le

theorem refCounted_of_run {es : List Event} (h : RefCounted s)
    (hr : (system cfg).run s es = some s') : RefCounted s' :=
  System.Meets.invariant (P := RefCounted)
    (fun _ _ _ hs _ hst => refCounted_step hs (step_cases hst)) System.meets_true hr h

/-- An operation leaves what is known of the broadcasts. -/
theorem Sound.executed (h : Sound x) {ok : Bool} {replies : List NetBuffer} {t : Thread}
    {rest : List Op} (hi : x.1.threads[i]? = some t) (hcode : t.code = op :: rest)
    (hs : Step cfg x.1 (.exec i ok replies) s')
    (hfresh : ∀ b ∈ held (s', x.2.execOp i t.session op),
      b < (x.2.execOp i t.session op).nextBuffer) :
    Sound (s', x.2.execOp i t.session op) := by
  obtain ⟨hnext, -⟩ := hs.exec_others hi
  have hsid := h.refCounted.drawn t (List.mem_of_getElem? hi)
  have hreturned := (execOp_returned x.2 i t.session op).1
  have hbroadcastOf := broadcastOf_execOp x.2 i t.session op
  have hthreads : s'.threads.length = x.1.threads.length := by
    rw [hs.exec_threads hi hcode, List.length_set]
  refine ⟨refCounted_step h.refCounted hs, hfresh, fun sid hlt => ?_, fun j b hb => ?_,
    fun j k b hb hb' => ?_, hreturned.trans h.returned⟩
  · obtain ⟨hqueue, hreserved⟩ := execOp_others x.2 i t.session op
      (hsid.trans_lt (hnext ▸ hlt)).ne'
    rw [NetBuffers.heldBy, hqueue, hreserved]
    exact h.undrawn sid (hnext ▸ hlt)
  · rw [hbroadcastOf] at hb
    obtain ⟨hj, hcount⟩ := h.broadcasting j b hb
    exact ⟨hj.trans_eq hthreads.symm,
      (execOp_old _ _ _ _ (h.fresh b (h.mem_held hb))).1.trans hcount⟩
  · rw [hbroadcastOf] at hb hb'
    exact h.apart j k b hb hb'

/-- The buffer of a broadcast that begins has two references, and no other broadcast. -/
theorem Sound.begun (h : Sound x) {packet : NetBuffer} (hready : x.1.ready i = true)
    (hfresh : ∀ b ∈ held (x.1, x.2.broadcast i packet x.1.sessionIdList),
      b < (x.2.broadcast i packet x.1.sessionIdList).nextBuffer) :
    Sound (x.1, x.2.broadcast i packet x.1.sessionIdList) := by
  have hne : ∀ j, ∀ b ∈ x.2.broadcastOf j, b ≠ x.2.nextBuffer := fun j b hb =>
    (h.fresh b (h.mem_held hb)).ne
  refine ⟨h.refCounted, hfresh, h.undrawn, fun j b hb => ?_, fun j k b hb hb' => ?_, h.returned⟩
  · rcases mem_broadcastOf_broadcast hb with ⟨rfl, rfl⟩ | hold
    · refine ⟨lt_length_of_ready hready, ?_⟩
      simp [NetBuffers.broadcast, NetBuffers.setBroadcast, NetBuffers.addRefCount,
        NetBuffers.alloc]
    · obtain ⟨hj, hcount⟩ := h.broadcasting j b hold
      refine ⟨hj, ?_⟩
      simp [NetBuffers.broadcast, NetBuffers.setBroadcast, NetBuffers.addRefCount,
        NetBuffers.alloc, Function.update_of_ne (hne j b hold), hcount]
  · rcases mem_broadcastOf_broadcast hb with ⟨rfl, rfl⟩ | hold
    · rcases mem_broadcastOf_broadcast hb' with ⟨rfl, -⟩ | hold'
      · rfl
      · exact absurd rfl (hne k _ hold')
    · rcases mem_broadcastOf_broadcast hb' with ⟨rfl, rfl⟩ | hold'
      · exact absurd rfl (hne j _ hold)
      · exact h.apart j k b hold hold'

/-- The `Free` at the end of a broadcast finds two references and leaves one. -/
theorem Sound.ended (h : Sound x) {broadcast : Broadcasting}
    (hb : x.2.broadcasts i = some broadcast)
    (hfresh : ∀ b ∈ held (x.1, (x.2.free broadcast.buffer).setBroadcast i none),
      b < ((x.2.free broadcast.buffer).setBroadcast i none).nextBuffer) :
    Sound (x.1, (x.2.free broadcast.buffer).setBroadcast i none) := by
  have hbuffer := mem_broadcastOf hb
  have hcount := (h.broadcasting i _ hbuffer).2
  refine ⟨h.refCounted, hfresh, h.undrawn, fun j b hb => ?_, fun j k b hb hb' => ?_, ?_⟩
  · obtain ⟨hne, hold⟩ := mem_broadcastOf_end hb
    obtain ⟨hj, hcount'⟩ := h.broadcasting j b hold
    have hother : b ≠ broadcast.buffer := by
      rintro rfl
      exact hne (h.apart j i _ hold hbuffer)
    refine ⟨hj, ?_⟩
    simp [NetBuffers.setBroadcast, NetBuffers.free, Function.update_of_ne hother, hcount']
  · exact h.apart j k b (mem_broadcastOf_end hb).2 (mem_broadcastOf_end hb').2
  · simp [NetBuffers.setBroadcast, NetBuffers.free, hcount, h.returned]

/-- **Every step keeps the state sound.** -/
theorem Sound.step (h : Sound x) (hs : SendingStep cfg x ev x') : Sound x' := by
  have hfresh := h.fresh_step (h.transfers hs)
  cases hs with
  | executed hi hcode hs => exact h.executed hi hcode hs hfresh
  | @unsent e s' he hocc hs =>
    have hu := hs.unsent he
    exact ⟨refCounted_step h.refCounted hs, hfresh,
      fun sid hlt => h.undrawn sid (hu.nextSessionId.trans_lt hlt),
      fun j b hb => ⟨(h.broadcasting j b hb).1.trans_eq hu.threads.symm, (h.broadcasting j b hb).2⟩,
      h.apart, h.returned⟩
  | begun packet hready hnone => exact h.begun hready hfresh
  | @sent i broadcast s' sessionIdList hb hsends =>
    have hbroadcastOf := broadcastOf_goOn sessionIdList hb
    have hu := hsends.unsent
    obtain ⟨es, hrun⟩ := hsends.run
    refine ⟨refCounted_of_run h.refCounted hrun, hfresh,
      fun sid hlt => h.undrawn sid (hu.nextSessionId.trans_lt hlt), fun j b hb => ?_,
      fun j k b hb hb' => ?_, h.returned⟩
    · rw [hbroadcastOf] at hb
      exact ⟨(h.broadcasting j b hb).1.trans_eq hu.threads.symm, (h.broadcasting j b hb).2⟩
    · rw [hbroadcastOf] at hb hb'
      exact h.apart j k b hb hb'
  | ended hb => exact h.ended hb hfresh

/-! ## When every buffer is returned -/

/-- Where no buffer is ever returned, every one has to be held. -/
theorem Sound.returnedOnce_iff_held (h : Sound x) :
    ReturnedOnce x ↔ ∀ b < x.2.nextBuffer, b ∈ held x := by
  constructor
  · intro hr b hb
    by_contra hunheld
    have hmem := hr.returned b hb hunheld
    rw [h.returned] at hmem
    cases hmem
  · intro hall
    refine ⟨h.returned ▸ List.nodup_nil, fun b hb => ?_, fun b hb hunheld => ?_⟩
    · rw [h.returned] at hb
      cases hb
    · exact absurd (hall b hb) hunheld

/-- A buffer a step takes, other than one it allocates in vain, was held. -/
theorem Transfers.taken_of_ne (h : Transfers x ev x') (hb : b ∈ taken x ev)
    (hne : b ≠ x.2.nextBuffer) : b ∉ given x ev ∧ b ∈ held x := by
  have hgiven : b ∉ given x ev := fun hg => hne (h.apart b hg hb)
  have hlaw := h.law b
  have hpos := List.count_pos_iff.mpr hb
  rw [List.count_eq_zero_of_not_mem hgiven] at hlaw
  exact ⟨hgiven, List.count_pos_iff.mp (by omega)⟩

/-- A step gives at most one buffer. -/
theorem count_given_le (x : State × NetBuffers) (ev : SendingEvent) (b : BufferId) :
    (given x ev).count b ≤ 1 := by
  have hlength : (given x ev).length ≤ 1 := by
    unfold given
    repeat' split
    · unfold NetBuffers.gives
      repeat' split
      all_goals simp
    all_goals simp
  exact List.count_le_length.trans hlength

/-- So a buffer that was allocated in vain has no holder. -/
theorem Transfers.not_held (h : Transfers x ev x') (hb : b ∈ taken x ev) (hunheld : b ∉ held x) :
    b ∉ held x' := by
  have hlaw := h.law b
  have hpos := List.count_pos_iff.mpr hb
  have hone := count_given_le x ev b
  rw [List.count_eq_zero_of_not_mem hunheld] at hlaw
  exact List.count_eq_zero.mp (by omega)

/-- **A step keeps every buffer with a holder exactly where it takes none from its last.** -/
theorem Sound.returnedOnce_step (h : Sound x) (hs : SendingStep cfg x ev x') :
    ReturnedOnce x' ↔ ReturnedOnce x ∧ keepsHolder x ev = true := by
  have ht := h.transfers hs
  have hle := ht.le
  rw [(h.step hs).returnedOnce_iff_held, h.returnedOnce_iff_held, keepsHolder, List.all_eq_true]
  simp only [decide_eq_true_eq]
  constructor
  · intro hall
    have hnew : x.2.nextBuffer ∉ taken x ev := by
      intro hmem
      have hunheld : x.2.nextBuffer ∉ held x := fun hheld => (h.fresh _ hheld).false
      have hlaw := ht.law x.2.nextBuffer
      have hpos := List.count_pos_iff.mpr hmem
      rw [List.count_eq_zero_of_not_mem hunheld] at hlaw
      refine ht.not_held hmem hunheld (hall _ ?_)
      rw [ht.nextBuffer]
      exact Nat.lt_add_of_pos_right (by omega)
    refine ⟨fun b hb => ?_, fun b hb => ?_⟩
    · have hlaw := ht.law b
      have hpos := List.count_pos_iff.mpr (hall b (hb.trans_le hle))
      by_cases hgiven : b ∈ given x ev
      · exact (ht.source b hgiven).resolve_left hb.ne
      · rw [List.count_eq_zero_of_not_mem hgiven] at hlaw
        exact List.count_pos_iff.mp (by omega)
    · obtain ⟨hgiven, hheld⟩ := ht.taken_of_ne hb fun heq => hnew (heq ▸ hb)
      have hlaw := ht.law b
      have hpos := List.count_pos_iff.mpr (hall b ((h.fresh b hheld).trans_le hle))
      rw [List.count_eq_zero_of_not_mem hgiven] at hlaw
      omega
  · rintro ⟨hall, hkeeps⟩ b hb
    have hlaw := ht.law b
    refine List.count_pos_iff.mp ?_
    have hheld : 0 < (held x).count b + (given x ev).count b := by
      rcases Nat.lt_or_ge b x.2.nextBuffer with hlt | hge
      · exact Nat.add_pos_left (List.count_pos_iff.mpr (hall b hlt)) _
      · have hone := count_given_le x ev x.2.nextBuffer
        rw [ht.nextBuffer] at hb
        obtain rfl : b = x.2.nextBuffer :=
          Nat.le_antisymm (Nat.le_of_lt_succ (hb.trans_le (Nat.add_le_add_left hone _))) hge
        exact Nat.add_pos_right _ (Nat.pos_of_lt_add_right hb)
    by_cases htaken : b ∈ taken x ev
    · have := hkeeps b htaken
      omega
    · rw [List.count_eq_zero_of_not_mem htaken] at hlaw
      omega

variable {start : State × NetBuffers}

/-- **Every outgoing buffer is returned exactly once in a run exactly as long as no step takes a
buffer from its last holder.** -/
theorem returnedOnce_iff (hinit : (sendingSystem cfg).Init start)
    (hr : (sendingSystem cfg).run start evs = some x) :
    ReturnedOnce x ↔
      (sendingSystem cfg).Meets (fun x ev => keepsHolder x ev = true) start evs := by
  have hsound := sound_initial hinit
  have hstart : ReturnedOnce start := by
    refine hsound.returnedOnce_iff_held.mpr fun b hb => ?_
    rw [hinit.2] at hb
    exact absurd hb (Nat.not_lt_zero b)
  have hrun := System.holds_iff_meets (P := ReturnedOnce) (I := Sound)
    (fun _ _ _ h hs => h.step (sendingStep_cases hs))
    (fun _ _ _ h hs => h.returnedOnce_step (sendingStep_cases hs)) hr hsound
  exact hrun.trans (and_iff_right hstart)

/-- A session with a packet of its own and one of a broadcast in its queue: while the stream is not
made, both are held. -/
theorem returnedOnce_queued : ∃ x : State × NetBuffers, ReturnedOnce x ∧ x.2.nextBuffer = 2 ∧
    held x = [0, 1] := by
  obtain ⟨x, hm, hr, hx⟩ := System.exists_run (sendingSystem checksumConfig)
    (List.map SendingEvent.server (.accept 0 0 [] true :: execs 0 7 ++
      [.getSession 2 2, .sendPacket 2 [1, 2, 3]] ++ execs 2 2) ++
      [.broadcast 3 [9], .broadcastTo 3] ++ (execs 3 2).map .server ++ [.broadcastEnd 3])
    (s := (initialState 1 2, .empty)) (c := keepsHolder)
    (f := fun x => x.2.nextBuffer = 2 ∧ held x = [0, 1]) (by decide +kernel)
  obtain ⟨hnext, hheld⟩ := of_decide_eq_true hx
  exact ⟨x, (returnedOnce_iff ⟨⟨1, 2, rfl⟩, rfl⟩ hr).mpr hm, hnext, hheld⟩

/-- One `SendPacket`, copied into the send stream: nobody holds the buffer any more, and it was not
returned. -/
theorem not_returnedOnce_copied : ∃ x : State × NetBuffers,
    (sendingSystem checksumConfig).Reachable x ∧ ¬ ReturnedOnce x := by
  obtain ⟨x, hreach, hx⟩ := System.exists_reachable (sendingSystem checksumConfig)
    (List.map SendingEvent.server (.accept 0 0 [] true :: execs 0 7 ++
      [.getSession 2 2, .sendPacket 2 [1, 2, 3]] ++ execs 2 5))
    (s := (initialState 1 2, .empty)) (f := fun x => ¬ ReturnedOnce x)
    ⟨⟨1, 2, rfl⟩, rfl⟩ (by decide +kernel)
  exact ⟨x, hreach, of_decide_eq_true hx⟩

end RIOServer

end DdingGameServer
