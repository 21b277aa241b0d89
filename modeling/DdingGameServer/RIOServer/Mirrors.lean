import DdingGameServer.RIOServer.Returns
/-!
# RIOServer — the outgoing buffers are the packets

The server is modelled with packets in its queues, the code has pointers there. In every state
reached the two agree: behind the pointers in `sendQueue` and `reservedBuffer` of a session stand
the packets the server has there, whatever was allocated or sent in between. A thread that
broadcasts enqueues nothing but the packet of its broadcast.
-/

namespace DdingGameServer

namespace RIOServer

variable {cfg : NetConfig} {s s' : State} {e : Event} {n n' : NetBuffers} {i : ℕ}
  {sid : SessionId} {op : Op} {b : BufferId} {packet : NetBuffer} {se : RIOSession} {sh : Shared}
  {res : IoPostError} {ok : Bool} {replies : List NetBuffer} {x x' : State × NetBuffers}
  {ev : SendingEvent}

/-! ## One session -/

/-- **The pointers of a session stand for its packets.** -/
structure Mirrors (n : NetBuffers) (sid : SessionId) (se : RIOSession) : Prop where
  sendQueue : (n.sendQueue sid).map n.content = se.sendQueue
  reservedBuffer : (n.reservedBuffer sid).map n.content = se.reservedBuffer
  placed : ∀ b ∈ n.heldBy sid true, b < n.nextBuffer

/-- They do as long as no buffer handed out before is written to. -/
theorem Mirrors.frame (h : Mirrors n sid se) (hqueue : n'.sendQueue sid = n.sendQueue sid)
    (hreserved : n'.reservedBuffer sid = n.reservedBuffer sid)
    (hcontent : ∀ b < n.nextBuffer, n'.content b = n.content b)
    (hle : n.nextBuffer ≤ n'.nextBuffer) : Mirrors n' sid se := by
  have hplaced : ∀ b, b ∈ n.sendQueue sid ∨ b ∈ n.reservedBuffer sid → b < n.nextBuffer := by
    intro b hb
    exact h.placed b (by simpa [NetBuffers.heldBy] using hb)
  refine ⟨?_, ?_, fun b hb => ?_⟩
  · rw [hqueue, ← h.sendQueue]
    exact List.map_congr_left fun b hb => hcontent b (hplaced b (.inl hb))
  · rw [hreserved, ← h.reservedBuffer]
    exact Option.map_congr fun b hb => hcontent b (hplaced b (.inr hb))
  · rw [NetBuffers.heldBy, hqueue, hreserved] at hb
    exact (h.placed b hb).trans_le hle

theorem Mirrors.enqueue (h : Mirrors n sid se) (hb : b < n.nextBuffer) :
    Mirrors (n.enqueue sid b) sid { se with sendQueue := se.sendQueue ++ [n.content b] } := by
  refine ⟨?_, h.reservedBuffer, fun c hc => ?_⟩
  · simp [NetBuffers.enqueue, h.sendQueue]
  · simp only [NetBuffers.heldBy, NetBuffers.enqueue, Function.update_self, if_true,
      List.mem_append, List.mem_singleton] at hc
    rcases hc with (hc | rfl) | hc
    · exact h.placed c (by simp [NetBuffers.heldBy, hc])
    · exact hb
    · exact h.placed c (List.mem_append_right _ hc)

/-- A new buffer is nobody's. -/
theorem Mirrors.alloc (h : Mirrors n sid se) (packet : NetBuffer) :
    Mirrors (n.alloc packet) sid se :=
  h.frame rfl rfl (fun _ hb => Function.update_of_ne hb.ne _ _) (Nat.le_succ _)

/-- **The operation does no more than broadcast `packet`.** -/
def Op.relays (packet : NetBuffer) : Op → Bool
  | .enqueue packet' => packet' = packet
  | .getIOCompletedContext _ _ | .recvCompleted _ | .onRecvPacket _ => false
  | _ => true

/-- Nor does what it leads to. -/
theorem execOp_relays (h : op.relays packet = true) :
    ∀ op' ∈ (execOp cfg op ok replies sid sh se res).code, op'.relays packet = true := by
  unfold execOp
  repeat' split
  all_goals simp_all [Op.relays, sendPost, recvPost, releaseSession, enterNewSession]

/-- `MakeSendStream` copies the reserved packet behind the reserved pointer. -/
theorem Mirrors.makeSendStream (h : Mirrors n sid se) :
    Mirrors (n.execOp i sid .makeSendStream) sid
      (execOp cfg .makeSendStream ok replies sid sh se res).session := by
  have hreserved := h.reservedBuffer
  simp only [NetBuffers.execOp, RIOServer.execOp]
  cases hr : n.reservedBuffer sid with
  | none =>
    rw [hr, Option.map_none] at hreserved
    rw [← hreserved]
    exact h
  | some r =>
    rw [hr, Option.map_some] at hreserved
    rw [← hreserved]
    by_cases hvalid : isValidPacketSize (n.content r).length = true
    · simp only [hvalid, if_true]
      refine ⟨h.sendQueue, by simp, fun b hb => h.placed b ?_⟩
      exact List.mem_append_left _ (by simpa [NetBuffers.heldBy] using hb)
    · simp only [hvalid]
      exact h

/-- A round of its loop takes the packet behind the first pointer of the queue. -/
theorem Mirrors.streamLoop (h : Mirrors n sid se) (ctx count totalSendSize : ℕ)
    (copied : List NetBuffer) :
    Mirrors (n.execOp i sid (.streamLoop ctx count totalSendSize copied)) sid
      (execOp cfg (.streamLoop ctx count totalSendSize copied) ok replies sid sh se
        res).session := by
  cases count with
  | zero =>
    simp only [NetBuffers.execOp, RIOServer.execOp]
    split
    all_goals exact h
  | succ count =>
    have hqueue := h.sendQueue
    simp only [NetBuffers.execOp, RIOServer.execOp]
    cases hq : n.sendQueue sid with
    | nil =>
      rw [hq, List.map_nil] at hqueue
      rw [← hqueue]
      exact h
    | cons r sendQueue =>
      rw [hq, List.map_cons] at hqueue
      rw [← hqueue]
      have hplaced : ∀ b, b = r ∨ b ∈ sendQueue ∨ b ∈ n.reservedBuffer sid → b < n.nextBuffer :=
        fun b hb => h.placed b (by simpa [NetBuffers.heldBy, hq, or_assoc] using hb)
      -- the buffer goes into the stream, unless the stream has no room for it
      have hcopied : Mirrors { n with sendQueue := Function.update n.sendQueue sid sendQueue } sid
          { se with sendQueue := sendQueue.map n.content } := by
        refine ⟨by simp, h.reservedBuffer, fun b hb => hplaced b (.inr ?_)⟩
        simpa [NetBuffers.heldBy] using hb
      by_cases hvalid : isValidPacketSize (n.content r).length = true
      · by_cases hroom : maxSendBufferSize ≤ totalSendSize + (n.content r).length
        · simp only [NetBuffers.overflows, hvalid, hroom, decide_true, Bool.and_self, if_true]
          refine ⟨by simp, by simp, fun b hb => hplaced b ?_⟩
          simp only [NetBuffers.heldBy, Function.update_self, if_true, Option.toList,
            List.mem_append, List.mem_singleton] at hb
          exact hb.elim (fun hb => .inr (.inl hb)) .inl
        · simpa [NetBuffers.overflows, hvalid, hroom] using hcopied
      · simpa [NetBuffers.overflows, hvalid] using hcopied

/-- **An operation moves pointers as it moves packets.** -/
theorem Mirrors.exec (h : Mirrors n sid se)
    (hpacket : ∀ b ∈ n.broadcastOf i, b < n.nextBuffer ∧ op.relays (n.content b) = true) :
    Mirrors (n.execOp i sid op) sid (execOp cfg op ok replies sid sh se res).session := by
  cases op with
  | enqueue packet =>
    simp only [NetBuffers.execOp, RIOServer.execOp]
    cases hb : n.broadcasts i with
    | some broadcast =>
      obtain ⟨hlt, hrelays⟩ := hpacket _ (mem_broadcastOf hb)
      obtain rfl : packet = n.content broadcast.buffer := by simpa [Op.relays] using hrelays
      exact h.enqueue hlt
    | none =>
      have henqueue := (h.alloc packet).enqueue (Nat.lt_succ_self n.nextBuffer)
      rwa [show (n.alloc packet).content n.nextBuffer = packet from
        Function.update_self _ _ _] at henqueue
  | makeSendStream => exact h.makeSendStream
  | streamLoop ctx count totalSendSize copied => exact h.streamLoop ctx count totalSendSize copied
  | _ =>
    simp only [NetBuffers.execOp, RIOServer.execOp]
    repeat' split
    all_goals exact ⟨h.sendQueue, h.reservedBuffer, h.placed⟩

/-! ## The whole server -/

/-- A thread that does no more than broadcast `packet`. -/
def Thread.Sending (packet : NetBuffer) (t : Thread) : Prop :=
  t.role = .sender ∧ ∀ op ∈ t.code, op.relays packet = true

/-- **The buffers are the packets of the server.** -/
structure Mirrored (x : State × NetBuffers) : Prop where
  sound : Sound x
  sessions : ∀ sid, Mirrors x.2 sid (x.1.session sid)
  senders : ∀ i, ∀ b ∈ x.2.broadcastOf i, ∀ t, x.1.threads[i]? = some t →
    t.Sending (x.2.content b)

theorem mirrored_initial (h : (sendingSystem cfg).Init x) : Mirrored x := by
  refine ⟨sound_initial h, ?_, ?_⟩
  · obtain ⟨⟨numOfWorkerThread, senders, hstart⟩, hempty⟩ := h
    rw [hstart, hempty]
    exact fun sid => ⟨rfl, rfl, fun b hb => by cases hb⟩
  · rw [h.2]
    exact fun i b hb => by cases hb

/-- A thread in a broadcast goes on with it. -/
theorem Thread.Sending.exec {t : Thread} {rest : List Op} (h : t.Sending packet)
    (hcode : t.code = op :: rest) {t' : Thread} (hrole : t'.role = t.role)
    (hcode' : t'.code = (execOp cfg op ok replies sid sh se res).code ++ rest) :
    t'.Sending packet := by
  refine ⟨hrole.trans h.1, fun op' hop' => ?_⟩
  rw [hcode'] at hop'
  rcases List.mem_append.mp hop' with hnew | hold
  · exact execOp_relays (h.2 op (by rw [hcode]; exact List.mem_cons_self)) op' hnew
  · exact h.2 op' (by rw [hcode]; exact List.mem_cons_of_mem _ hold)

/-- One thread replaced. -/
theorem Mirrored.senders_set (h : Mirrored x) {j : ℕ} {t u : Thread}
    (hj : x.1.threads[j]? = some t)
    (hu : ∀ b ∈ x.2.broadcastOf j, t.Sending (x.2.content b) → u.Sending (x.2.content b)) :
    ∀ i, ∀ b ∈ x.2.broadcastOf i, ∀ v, (x.1.threads.set j u)[i]? = some v →
      v.Sending (x.2.content b) := by
  intro i b hb v hv
  rcases getElem?_set_eq_some hv with ⟨rfl, rfl⟩ | ⟨-, hold⟩
  · exact hu b hb (h.senders i b hb t hj)
  · exact h.senders i b hb v hold

/-- A step of the server that executes nothing leaves the queues of the sessions. -/
theorem Mirrored.sessions_of_unsent (h : Mirrored x) (he : ∀ i ok replies, e ≠ .exec i ok replies)
    (hs : Step cfg x.1 e s') (sid : SessionId) : Mirrors x.2 sid (s'.session sid) := by
  have hold := h.sessions sid
  cases hs.moves sid with
  | unmoved hse => exact hse ▸ hold
  | called _ _ _ hse => exact hse ▸ hold
  | completed _ _ hse => exact hse ▸ ⟨hold.sendQueue, hold.reservedBuffer, hold.placed⟩
  | dequeued _ _ _ _ hse => exact hse ▸ ⟨hold.sendQueue, hold.reservedBuffer, hold.placed⟩
  | executed ok replies => exact absurd rfl (he _ ok replies)
  | entered _ hid _ _ hse =>
    have hnil := h.sound.undrawn sid (hid ▸ lt_newSessionId)
    obtain ⟨hqueue, hreserved⟩ := List.append_eq_nil_iff.mp hnil
    rw [hse]
    refine ⟨by rw [hqueue]; rfl, ?_, fun b hb => ?_⟩
    · rw [Option.toList_eq_nil_iff.mp hreserved]
      rfl
    · rw [hnil] at hb
      cases hb

/-- And a thread that broadcasts makes no other call. -/
theorem Mirrored.senders_of_unsent (h : Mirrored x) (he : ∀ i ok replies, e ≠ .exec i ok replies)
    (hocc : x.2.occupied e = false) (hs : Step cfg x.1 e s') :
    ∀ i, ∀ b ∈ x.2.broadcastOf i, ∀ t, s'.threads[i]? = some t → t.Sending (x.2.content b) := by
  cases hs with
  | acceptFailed => exact h.senders
  | accepted hi hcode hid =>
    exact h.senders_set hi fun b _ ht => ⟨ht.1, by simp [makeNewSession, Op.relays]⟩
  | gotSession hi hcode hmem => exact h.senders_set hi fun b _ ht => ht
  | @called i t e code hi hcode hne hcall =>
    refine h.senders_set hi fun b hb _ => ?_
    have hnone : x.2.broadcasts i = none := by
      cases hcall <;> simpa [NetBuffers.occupied] using hocc
    rw [NetBuffers.broadcastOf, hnone] at hb
    cases hb
  | completed data hc => exact h.senders
  | dequeued hi hcode hrole hc =>
    -- the thread is a worker, and those do not broadcast
    refine h.senders_set hi fun b _ ht => ?_
    cases hrole.symm.trans ht.1
  | executed ok replies => exact absurd rfl (he _ ok replies)

/-- **Every step keeps the buffers the packets of the server.** -/
theorem Mirrored.step (h : Mirrored x) (hs : SendingStep cfg x ev x') : Mirrored x' := by
  have hsound := h.sound.step hs
  have hle := (h.sound.transfers hs).le
  have hfresh : ∀ i, ∀ b ∈ x.2.broadcastOf i, b < x.2.nextBuffer := fun i b hb =>
    h.sound.fresh b (h.sound.mem_held hb)
  cases hs with
  | @executed i ok replies t op rest s' hi hcode hs =>
    obtain ⟨-, hothers⟩ := hs.exec_others hi
    have hcontent : ∀ b < x.2.nextBuffer, (x.2.execOp i t.session op).content b = x.2.content b :=
      fun b hb => (execOp_old _ _ _ _ hb).2
    have hbroadcastOf : ∀ j, (x.2.execOp i t.session op).broadcastOf j = x.2.broadcastOf j :=
      broadcastOf_execOp _ _ _ _
    refine ⟨hsound, fun sid => ?_, fun j b hb u hu => ?_⟩
    · rcases eq_or_ne sid t.session with rfl | hne
      · simp only [hs.exec_session hi hcode]
        refine (h.sessions _).exec fun b hb => ⟨hfresh i b hb, ?_⟩
        exact (h.senders i b hb t hi).2 op (by rw [hcode]; exact List.mem_cons_self)
      · simp only [hothers sid hne]
        exact (h.sessions sid).frame (execOp_others _ _ _ _ hne).1 (execOp_others _ _ _ _ hne).2
          hcontent hle
    · simp only [hbroadcastOf] at hb
      simp only [hs.exec_threads hi hcode] at hu
      simp only [hcontent b (hfresh j b hb)]
      refine h.senders_set hi (fun b _ ht => ?_) j b hb u hu
      exact ht.exec hcode rfl rfl
  | @unsent e s' he hocc hs =>
    exact ⟨hsound, h.sessions_of_unsent he hs, h.senders_of_unsent he hocc hs⟩
  | @begun i packet hready hnone =>
    have hcontent : ∀ b < x.2.nextBuffer,
        (x.2.broadcast i packet x.1.sessionIdList).content b = x.2.content b :=
      fun b hb => Function.update_of_ne hb.ne _ _
    refine ⟨hsound, fun sid => (h.sessions sid).frame rfl rfl hcontent hle, fun j b hb t hj => ?_⟩
    rcases mem_broadcastOf_broadcast hb with ⟨rfl, -⟩ | hold
    · obtain ⟨t', ht', hrole, hcode⟩ := exists_of_ready hready
      obtain rfl : t = t' := Option.some.inj (hj.symm.trans ht')
      exact ⟨hrole, by simp [hcode]⟩
    · have hsending := h.senders j b hold t hj
      simp only [hcontent b (hfresh j b hold)]
      exact hsending
  | @sent i broadcast s' sessionIdList hb hsends =>
    refine ⟨hsound, fun sid => ?_, fun j b hb' t hj => ?_⟩
    · simp only [hsends.session]
      exact ⟨(h.sessions sid).sendQueue, (h.sessions sid).reservedBuffer, (h.sessions sid).placed⟩
    · simp only [broadcastOf_goOn sessionIdList hb] at hb'
      rcases hsends.threads with heq | ⟨u, v, hu, heq, hrole, hcode⟩
      · simp only [heq] at hj
        exact h.senders j b hb' t hj
      · simp only [heq] at hj
        refine h.senders_set hu (fun c hc hsending => ⟨hrole.trans hsending.1, ?_⟩) j b hb' t hj
        rw [NetBuffers.broadcastOf, hb] at hc
        obtain rfl : c = broadcast.buffer := by simpa using hc
        simp [hcode, RIOServer.sendPacket, sendPost, Op.relays]
  | @ended i broadcast hb =>
    refine ⟨hsound, fun sid => ?_, fun j b hb' t hj => ?_⟩
    · exact ⟨(h.sessions sid).sendQueue, (h.sessions sid).reservedBuffer, (h.sessions sid).placed⟩
    · exact h.senders j b (mem_broadcastOf_end hb').2 t hj

/-- **In every state reached, the pointers of every session stand for its packets.** -/
theorem mirrored_of_reachable (h : (sendingSystem cfg).Reachable x) : Mirrored x :=
  System.ReachableUnder.invariant (fun _ => mirrored_initial)
    (fun _ _ _ hm _ hs => hm.step (sendingStep_cases hs)) h

end RIOServer

end DdingGameServer
