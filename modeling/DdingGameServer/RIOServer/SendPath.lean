import DdingGameServer.RIOServer.RefCount
/-!
# RIOServer — the send path of a session

`ioMode` is a token: `SendPost` takes it with a compare-exchange, and it stays with the stream it
makes, then with the posted request, then with its completion, whose handler gives it back. Nothing
is stranded as long as somebody holds the token or is about to ask for it. The one exit that keeps
it is `MakeSendStream` on an empty queue with no reserved packet: the emptiness test before it asks
whether the array `rioSendBuffer` is null, which it never is, so `SendPost` returns with
`IO_SENDING` and nobody is left to reset it. A run is free of that step exactly when it leaves
nothing behind.
-/

namespace DdingGameServer

namespace RIOServer

variable {cfg : NetConfig} {s s' : State} {e : Event} {sid : SessionId} {p : Op → Bool} {op : Op}
  {rest : List Op} {ok : Bool} {replies : List NetBuffer} {sh : Shared} {se : RIOSession}
  {res : IoPostError}

/-! ## The token -/

/-- The context of a send request. -/
def IOContext.isSend (c : IOContext) : Bool := c.ioType = .opSend

/-- Holds `IO_SENDING` and will pass it on or give it back. A stream loop that has nothing to send
does neither. -/
def Op.holds : Op → Bool
  | .sendPostCheck | .sendPostReset | .makeSendStream | .countSend _ _ | .rioSend _ _
  | .sendIOCompleted => true
  | .streamLoop _ count totalSendSize _ => count ≠ 0 ∨ totalSendSize ≠ 0
  | .getIOCompletedContext c _ => c.isSend
  | _ => false

/-- Is about to ask for the token. -/
def Op.wakes : Op → Bool
  | .sendPostCas | .sendPostRecheck | .sendCompleted => true
  | _ => false

/-- Asks for the token though nothing was enqueued. -/
def Op.resumes : Op → Bool
  | .sendPostRecheck | .sendCompleted => true
  | _ => false

/-- The branch of `SendPost` behind the emptiness test. -/
def Op.rechecks : Op → Bool
  | .sendPostReset | .sendPostRecheck => true
  | _ => false

/-- Is about to take a packet out of the queue. -/
def Op.loops : Op → Bool
  | .streamLoop _ (_ + 1) _ _ => true
  | _ => false

def Op.enqueues : Op → Bool
  | .enqueue _ => true
  | _ => false

def Op.disconnects : Op → Bool
  | .setSendDisconnect => true
  | _ => false

instance : Op.Apart Op.holds := ⟨rfl, fun _ => rfl, rfl, fun _ => rfl⟩
instance : Op.Apart Op.resumes := ⟨rfl, fun _ => rfl, rfl, fun _ => rfl⟩
instance : Op.Apart Op.rechecks := ⟨rfl, fun _ => rfl, rfl, fun _ => rfl⟩

instance : Op.Follows IOContext.isSend Op.holds := ⟨fun _ _ => rfl⟩
instance : Op.Follows (fun _ => false) Op.resumes := ⟨fun _ _ => rfl⟩
instance : Op.Follows (fun _ => false) Op.rechecks := ⟨fun _ _ => rfl⟩

/-- How many holders the token has: operations to be executed and requests at the kernel. -/
def State.tokens (sid : SessionId) (s : State) : ℕ :=
  (s.session sid).outstanding IOContext.isSend + s.pending Op.holds sid

/-- A packet of between 1 and `MAX_SEND_BUFFER_SIZE - 1` bytes. -/
def Sized (packet : NetBuffer) : Prop := packet ≠ [] ∧ packet.length < maxSendBufferSize

instance (packet : NetBuffer) : Decidable (Sized packet) :=
  inferInstanceAs (Decidable (packet ≠ [] ∧ packet.length < maxSendBufferSize))

/-! ## What is assumed, and what goes wrong -/

/-- **The runs considered for the session `sid`.** Packets are `Sized` and sent without
disconnecting, `RIOSend` succeeds, and the completion of a send has bytes and finds its session. -/
def sendsOnly (sid : SessionId) (s : State) (e : Event) : Bool :=
  match e with
  | .sendPacket i packet => (s.threads[i]?.map Thread.session) = some sid → Sized packet
  | .sendPacketAndDisconnect i _ => (s.threads[i]?.map Thread.session) ≠ some sid
  | .exec _ ok replies =>
    match s.executing e with
    | some (t, .rioSend _ _, _) => t.session = sid → ok = true
    | some (t, .onRecvPacket _, _) => t.session = sid → ∀ packet ∈ replies, Sized packet
    | some (t, .getIOCompletedContext c data, _) =>
      t.session = sid → c.isSend = true → data ≠ [] ∧ sid ∈ s.shared.sessionMap
    | _ => true
  | _ => true

/-- `MakeSendStream` is not entered with nothing to send. -/
def streamsSomething (sid : SessionId) (s : State) (e : Event) : Bool :=
  match s.executing e with
  | some (t, .makeSendStream, _) =>
    t.session = sid → (s.session sid).sendQueue ≠ [] ∨ (s.session sid).reservedBuffer ≠ none
  | _ => true

/-- No thread is executing `SendPacket` or a send completion of the session, and no send request of
it is outstanding. -/
structure SendIdle (sid : SessionId) (s : State) : Prop where
  idle : ∀ t ∈ s.threads, t.session = sid → ∀ op ∈ t.code,
    op.holds = false ∧ op.wakes = false ∧ op.enqueues = false ∧ op.disconnects = false
  outstanding : (s.session sid).outstanding IOContext.isSend = 0

instance (sid : SessionId) (s : State) : Decidable (SendIdle sid s) :=
  decidable_of_iff ((∀ t ∈ s.threads, t.session = sid → ∀ op ∈ t.code,
    op.holds = false ∧ op.wakes = false ∧ op.enqueues = false ∧ op.disconnects = false) ∧
    (s.session sid).outstanding IOContext.isSend = 0)
    ⟨fun h => ⟨h.1, h.2⟩, fun h => ⟨h.idle, h.outstanding⟩⟩

/-- Nothing is left to send, and the next sender can take the token. -/
structure SendDrained (sid : SessionId) (s : State) : Prop where
  ioMode : (s.session sid).ioMode = .ioNoneSending
  sendQueue : (s.session sid).sendQueue = []
  reservedBuffer : (s.session sid).reservedBuffer = none

/-- It is kept where these three are. -/
theorem SendDrained.congr (h : SendDrained sid s)
    (hm : (s'.session sid).ioMode = (s.session sid).ioMode)
    (hq : (s'.session sid).sendQueue = (s.session sid).sendQueue)
    (hr : (s'.session sid).reservedBuffer = (s.session sid).reservedBuffer) : SendDrained sid s' :=
  ⟨hm.trans h.ioMode, hq.trans h.sendQueue, hr.trans h.reservedBuffer⟩

/-! ## One operation -/

/-- What an operation needs to pass the token on. -/
def PassesOn (op : Op) (ok : Bool) (sid : SessionId) (sh : Shared) (se : RIOSession) : Prop :=
  match op with
  | .getIOCompletedContext c data =>
    c.isSend = true → data ≠ [] ∧ sid ∈ sh.sessionMap ∧ se.ioCancle = false
  | .makeSendStream =>
    (se.sendQueue ≠ [] ∨ se.reservedBuffer ≠ none) ∧ ∀ b, se.reservedBuffer = some b → Sized b
  | .streamLoop _ count _ _ => count ≤ se.sendQueue.length ∧ ∀ b ∈ se.sendQueue, Sized b
  | .rioSend _ _ => ok = true
  | _ => True

/-- 1 while the token is out. -/
def IoMode.taken : IoMode → ℕ
  | .ioSending => 1
  | .ioNoneSending => 0

/-- **An operation passes the token on**, takes it, or gives it back. -/
theorem execOp_tokens {o : Outcome} (ho : o = execOp cfg op ok replies sid sh se res)
    (h : PassesOn op ok sid sh se) (hmode : op.holds = true → se.ioMode = .ioSending) :
    o.session.outstanding IOContext.isSend + o.code.countP Op.holds + se.ioMode.taken =
      se.outstanding IOContext.isSend + [op].countP Op.holds + o.session.ioMode.taken := by
  subst ho
  unfold execOp
  repeat' split
  all_goals
    simp_all [Op.holds, PassesOn, IoMode.taken, RIOSession.outstanding, IOContext.isSend, sendPost,
      recvPost, releaseSession, enterNewSession, List.countP_append, List.countP_cons, Sized,
      isValidPacketSize]
  all_goals grind

/-- An operation that neither holds the token nor asks for it hands none on. -/
theorem execOp_offPath {o : Outcome} (ho : o = execOp cfg op ok replies sid sh se res)
    (hh : op.holds = false) (hw : op.wakes = false) :
    o.code.countP Op.holds = 0 ∧
      o.code.countP Op.resumes = 0 ∧
      o.session.outstanding IOContext.isSend =
        se.outstanding IOContext.isSend := by
  subst ho
  unfold execOp
  repeat' split
  all_goals
    simp_all [Op.holds, Op.wakes, Op.resumes, RIOSession.outstanding, IOContext.isSend, recvPost,
      releaseSession, enterNewSession, List.countP_append]

/-- While the token is out, an operation that does not hold it changes nothing about it. -/
theorem execOp_taken {o : Outcome} (ho : o = execOp cfg op ok replies sid sh se res)
    (hmode : se.ioMode = .ioSending) (h : op.holds = false) :
    o.code.countP Op.holds = 0 ∧
      o.session.ioMode = .ioSending ∧
      o.session.outstanding IOContext.isSend =
        se.outstanding IOContext.isSend := by
  subst ho
  unfold execOp
  repeat' split
  all_goals
    simp_all [Op.holds, RIOSession.outstanding, IOContext.isSend, sendPost, recvPost,
      releaseSession, enterNewSession, List.countP_append]

/-- An operation off the send path leaves its data alone. -/
theorem execOp_sendItem {o : Outcome} (ho : o = execOp cfg op ok replies sid sh se res)
    (hh : op.holds = false) (hw : op.wakes = false)
    (he : op.enqueues = false) :
    o.session.ioMode = se.ioMode ∧
      o.session.sendQueue = se.sendQueue ∧
      o.session.reservedBuffer = se.reservedBuffer := by
  subst ho
  unfold execOp
  repeat' split
  all_goals simp_all [Op.holds, Op.wakes, Op.enqueues]

theorem execOp_ioMode {o : Outcome} (ho : o = execOp cfg op ok replies sid sh se res)
    (hd : op ≠ .sendIOCompleted) (hc : op ≠ .sendPostCas)
    (hr : op.rechecks = false) :
    o.session.ioMode = se.ioMode := by
  subst ho
  unfold execOp
  repeat' split
  all_goals simp_all [Op.rechecks]

/-- Only `SendPacketAndDisconnect` sets `sendDisconnect`. -/
theorem execOp_sendDisconnect {o : Outcome} (ho : o = execOp cfg op ok replies sid sh se res)
    (h : op.disconnects = false) :
    o.session.sendDisconnect = se.sendDisconnect ∧
      o.session.ioCancle = se.ioCancle := by
  subst ho
  unfold execOp
  repeat' split
  all_goals simp_all [Op.disconnects]

theorem execOp_disconnects :
    (execOp cfg op ok replies sid sh se res).code.countP Op.disconnects = 0 := by
  have hreplies : (replies.flatMap sendPacket).countP Op.disconnects = 0 := by
    induction replies with
    | nil => rfl
    | cons packet replies ih => rw [List.flatMap_cons, List.countP_append, ih]; rfl
  unfold execOp
  repeat' split
  all_goals
    first
    | exact hreplies
    | simp [Op.disconnects, sendPost, recvPost, releaseSession, enterNewSession, List.countP_append,
        Function.comp_def]

/-- The branch behind the emptiness test is never entered. -/
theorem execOp_rechecks (h : op.rechecks = false) :
    (execOp cfg op ok replies sid sh se res).code.countP Op.rechecks = 0 := by
  unfold execOp
  repeat' split
  all_goals
    simp_all [Op.rechecks, sendPost, recvPost, releaseSession, enterNewSession, List.countP_append,
      rioSendBufferIsNull]

/-- The packets of the session are sized. -/
structure SizedSession (se : RIOSession) : Prop where
  sendQueue : ∀ b ∈ se.sendQueue, Sized b
  reservedBuffer : ∀ b, se.reservedBuffer = some b → Sized b

/-- What an operation carries fits the session: a packet to be enqueued is sized, and a stream loop
has no more rounds to go than the queue has packets. -/
def Fits (se : RIOSession) : Op → Prop
  | .enqueue packet => Sized packet
  | .streamLoop _ count _ _ => count ≤ se.sendQueue.length
  | _ => True

theorem SizedSession.exec (h : SizedSession se) (hf : Fits se op) :
    SizedSession (execOp cfg op ok replies sid sh se res).session := by
  unfold execOp
  repeat' split
  all_goals
    obtain ⟨hq, hr⟩ := h
    constructor <;> simp_all [Fits]
  grind

theorem fits_execOp (hf : Fits se op)
    (hr : ∀ p, op = .onRecvPacket p → ∀ packet ∈ replies, Sized packet) :
    ∀ op' ∈ (execOp cfg op ok replies sid sh se res).code,
      Fits (execOp cfg op ok replies sid sh se res).session op' := by
  unfold execOp
  repeat' split
  all_goals
    simp_all [Fits, sendPost, recvPost, releaseSession, enterNewSession, sendPacket]
  all_goals grind

/-- Only a stream loop takes packets out of the queue. -/
theorem length_le_execOp (h : op.loops = false) :
    se.sendQueue.length ≤ (execOp cfg op ok replies sid sh se res).session.sendQueue.length := by
  unfold execOp
  repeat' split
  all_goals simp_all [Op.loops]

/-! ## An enqueue is followed by a wakeup -/

/-- Behind every enqueue of a thread it will ask for the token. -/
def Woken : List Op → Prop
  | [] => True
  | op :: rest => (op.enqueues = true → 0 < rest.countP Op.wakes) ∧ Woken rest

theorem woken_append {l : List Op} (hl : l.countP Op.enqueues = 0) (h : Woken rest) :
    Woken (l ++ rest) := by
  induction l with
  | nil => exact h
  | cons op l ih =>
    rw [List.countP_cons] at hl
    refine ⟨fun he => ?_, ih (by omega)⟩
    simp [he] at hl

theorem woken_sendPacket {packet : NetBuffer} (h : Woken rest) :
    Woken (sendPacket packet ++ rest) :=
  ⟨fun _ => by simp [List.countP_cons, Op.wakes, sendPost], woken_append (l := sendPost) rfl h⟩

theorem woken_replies (h : Woken rest) : Woken (replies.flatMap sendPacket ++ rest) := by
  induction replies with
  | nil => exact h
  | cons packet replies ih =>
    rw [List.flatMap_cons, List.append_assoc]
    exact woken_sendPacket ih

theorem execOp_enqueues (h : ∀ packet, op ≠ .onRecvPacket packet) :
    (execOp cfg op ok replies sid sh se res).code.countP Op.enqueues = 0 := by
  unfold execOp
  repeat' split
  all_goals
    simp_all [Op.enqueues, sendPost, recvPost, releaseSession, enterNewSession, List.countP_append,
      Function.comp_def]

theorem Woken.exec (h : Woken (op :: rest)) :
    Woken ((execOp cfg op ok replies sid sh se res).code ++ rest) := by
  by_cases hr : ∃ packet, op = .onRecvPacket packet
  · obtain ⟨packet, rfl⟩ := hr
    exact woken_replies h.2
  · exact woken_append (execOp_enqueues fun packet hp => hr ⟨packet, hp⟩) h.2

theorem Calls.woken {i : ℕ} {code : List Op} (h : Calls i e code) : Woken code := by
  cases h with
  | sendPacket packet =>
    rw [← List.append_nil (RIOServer.sendPacket packet)]
    exact woken_sendPacket trivial
  | sendPacketAndDisconnect packet =>
    rw [← List.append_nil (RIOServer.sendPacket packet)]
    exact ⟨fun h => (by cases h), woken_sendPacket trivial⟩

/-! ## The invariant -/

/-- **What holds of the send path of `sid`** while every stream has had something to send. -/
structure SendAlive (sid : SessionId) (s : State) : Prop where
  /-- The token is out with exactly one holder, or at hand. -/
  tokens : s.tokens sid = (s.session sid).ioMode.taken
  /-- If it is at hand, somebody will ask for it before anything is left over. -/
  woken : (s.session sid).ioMode = .ioNoneSending →
    (s.session sid).sendQueue ≠ [] ∨ (s.session sid).reservedBuffer ≠ none →
    0 < s.pending Op.wakes sid
  connected : (s.session sid).sendDisconnect = false ∧ (s.session sid).ioCancle = false
  disconnects : s.pending Op.disconnects sid = 0
  rechecks : s.pending Op.rechecks sid = 0
  sized : SizedSession (s.session sid)
  fits : ∀ t ∈ s.threads, t.session = sid → ∀ op ∈ t.code, Fits (s.session sid) op
  followed : ∀ t ∈ s.threads, Woken t.code

/-- Taking a completion from its queue passes the token to the worker. -/
theorem Kept.tokens_eq (hk : Kept sid s s') : s'.tokens sid = s.tokens sid :=
  hk.followed IOContext.isSend Op.holds

/-- The token is out and nobody holds it. -/
structure SendStuck (sid : SessionId) (s : State) : Prop where
  taken : (s.session sid).ioMode = .ioSending
  tokens : s.tokens sid = 0
  drawn : sid ≤ s.nextSessionId

theorem sendAlive_initial (numOfWorkerThread senders : ℕ) (sid : SessionId) :
    SendAlive sid (initialState numOfWorkerThread senders) := by
  refine ⟨?_, fun _ h => ?_, ⟨rfl, rfl⟩, pending_initial _ _, pending_initial _ _, ⟨?_, ?_⟩,
    fun t ht _ op hop => ?_, fun t ht => ?_⟩
  · rw [State.tokens, pending_initial]
    rfl
  · simp [initialState, RIOSession.new] at h
  · simp [initialState, RIOSession.new]
  · simp [initialState, RIOSession.new]
  · rw [(idle_initial ht).1] at hop
    cases hop
  · rw [(idle_initial ht).1]
    exact trivial

/-- **An idle session with a live send path is drained.** -/
theorem SendAlive.drained (h : SendAlive sid s) (hidle : SendIdle sid s) : SendDrained sid s := by
  have hzero : ∀ p, (∀ op, p op = true → op.holds = true ∨ op.wakes = true) →
      s.pending p sid = 0 := by
    intro p hp
    by_contra hpos
    obtain ⟨t, ht, hsid, op, hop, hpop⟩ := exists_of_pending_pos (Nat.pos_of_ne_zero hpos)
    obtain ⟨hh, hw, -, -⟩ := hidle.idle t ht hsid op hop
    rcases hp op hpop with h | h
    · rw [hh] at h; cases h
    · rw [hw] at h; cases h
  have htokens := h.tokens
  rw [State.tokens, hidle.outstanding, hzero Op.holds fun _ => .inl] at htokens
  have hmode : (s.session sid).ioMode = .ioNoneSending := by
    cases hm : (s.session sid).ioMode with
    | ioNoneSending => rfl
    | ioSending => rw [hm] at htokens; cases htokens
  have hnothing : ¬ ((s.session sid).sendQueue ≠ [] ∨ (s.session sid).reservedBuffer ≠ none) := by
    intro hsome
    exact (h.woken hmode hsome).ne' (hzero Op.wakes fun _ => .inr)
  push Not at hnothing
  exact ⟨hmode, hnothing.1, hnothing.2⟩

/-- **A stuck send path stays stuck**, whatever happens. -/
theorem SendStuck.step (h : SendStuck sid s) (hs : Step cfg s e s') : SendStuck sid s' := by
  have hdrawn := h.drawn.trans hs.nextSessionId_le
  have htok := h.tokens
  have htaken := h.taken
  have hout : (s.session sid).outstanding IOContext.isSend = 0 := by
    rw [State.tokens] at htok
    omega
  have hpend : s.pending Op.holds sid = 0 := by
    rw [State.tokens] at htok
    omega
  cases hs.alters sid with
  | kept hk =>
    obtain ⟨posted, completed, hse⟩ := hk.session
    exact ⟨by rw [hse]; exact htaken, hk.tokens_eq.trans htok, hdrawn⟩
  | entered threadId hid hnext hlt hse hsh hp =>
    exact absurd h.drawn (Nat.not_le.mpr (hid ▸ lt_newSessionId))
  | @executed s' i t op rest o ok replies hi hsid hcode ho hse hsh hp =>
    have hnot : op.holds = false := next_eq_false hi hsid hcode hpend
    obtain ⟨hcode', hmode', hout'⟩ := execOp_taken ho htaken hnot
    have hph := hp Op.holds
    refine ⟨by rw [hse, hmode'], ?_, hdrawn⟩
    rw [State.tokens, hse, hout']
    omega

theorem Op.holds_of_loops (h : op.loops = true) : op.holds = true := by
  cases op with
  | streamLoop ctx count totalSendSize copied =>
    cases count with
    | zero => cases h
    | succ count => simp [Op.holds]
  | _ => cases h

/-- What fits a queue fits a longer one, and without rounds to go it fits any. -/
theorem Fits.mono {se' : RIOSession} (h : Fits se op)
    (hle : op.loops = true → se.sendQueue.length ≤ se'.sendQueue.length) : Fits se' op := by
  cases op with
  | streamLoop ctx count totalSendSize copied =>
    cases count with
    | zero => exact Nat.zero_le _
    | succ count => exact (show count + 1 ≤ _ from h).trans (hle rfl)
  | _ => exact h

/-- **The token has one holder.** -/
theorem SendAlive.one_holder (h : SendAlive sid s) {i : ℕ} {t : Thread}
    (hi : s.threads[i]? = some t) (hsid : t.session = sid) (hcode : t.code = op :: rest)
    (hop : op.holds = true) :
    (∀ op' ∈ rest, op'.holds = false) ∧
      ∀ j u, j ≠ i → s.threads[j]? = some u → u.session = sid → ∀ op' ∈ u.code,
        op'.holds = false := by
  have hone : s.pending Op.holds sid ≤ 1 := by
    have htok := h.tokens
    rw [State.tokens] at htok
    have : (s.session sid).ioMode.taken ≤ 1 := by
      cases (s.session sid).ioMode <;> simp [IoMode.taken]
    omega
  have ht : t.owes Op.holds sid = rest.countP Op.holds + 1 := by
    rw [← hsid, Thread.owes_self, hcode, List.countP_cons, if_pos hop]
  constructor
  · intro op' hop'
    have hle : t.owes Op.holds sid ≤ s.pending Op.holds sid := le_tally hi
    by_contra hh
    have hpos : 0 < rest.countP Op.holds :=
      List.countP_pos_iff.mpr ⟨op', hop', by simpa using hh⟩
    omega
  · intro j u hj hju husid op' hop'
    have hle : u.owes Op.holds sid + t.owes Op.holds sid ≤ s.pending Op.holds sid :=
      add_le_tally hj hju hi
    by_contra hh
    have hpos : 0 < u.code.countP Op.holds :=
      List.countP_pos_iff.mpr ⟨op', hop', by simpa using hh⟩
    rw [← husid, Thread.owes_self] at hle
    rw [husid] at hle
    omega

/-- Where the token is held it is out. -/
theorem SendAlive.taken (h : SendAlive sid s) (hpos : 0 < s.pending Op.holds sid) :
    (s.session sid).ioMode = .ioSending := by
  have htok := h.tokens
  rw [State.tokens] at htok
  cases hm : (s.session sid).ioMode with
  | ioSending => rfl
  | ioNoneSending =>
    rw [hm] at htok
    simp only [IoMode.taken] at htok
    omega

/-- A call on the session is one of `SendPacket`, with a sized packet. -/
theorem sendPacket_of_called {i : ℕ} {t : Thread} {code : List Op}
    (hc : sendsOnly sid s e = true) (hi : s.threads[i]? = some t) (hsid : t.session = sid)
    (hcall : Calls i e code) : ∃ packet, Sized packet ∧ code = RIOServer.sendPacket packet := by
  cases hcall with
  | sendPacket packet => exact ⟨packet, of_decide_eq_true hc (by simp [hi, hsid]), rfl⟩
  | sendPacketAndDisconnect packet => exact absurd (by simp [hi, hsid]) (of_decide_eq_true hc)

/-- **The operations of a live send path pass the token on.** -/
theorem SendAlive.passesOn (h : SendAlive sid s) {i : ℕ} {t : Thread}
    (hc : sendsOnly sid s (.exec i ok replies) = true)
    (hb : streamsSomething sid s (.exec i ok replies) = true) (hi : s.threads[i]? = some t)
    (hsid : t.session = sid) (hcode : t.code = op :: rest) :
    PassesOn op ok sid s.shared (s.session sid) := by
  have hf := h.fits t (List.mem_of_getElem? hi) hsid op (by rw [hcode]; exact List.mem_cons_self)
  simp only [sendsOnly, executing_eq hi hcode] at hc
  simp only [streamsSomething, executing_eq hi hcode] at hb
  cases op with
  | getIOCompletedContext c data =>
    intro hsend
    obtain ⟨hdata, hmem⟩ := of_decide_eq_true hc hsid hsend
    exact ⟨hdata, hmem, h.connected.2⟩
  | makeSendStream => exact ⟨of_decide_eq_true hb hsid, h.sized.reservedBuffer⟩
  | streamLoop ctx count totalSendSize copied => exact ⟨hf, h.sized.sendQueue⟩
  | rioSend ctx copied => exact of_decide_eq_true hc hsid
  | _ => exact trivial

/-- **Where the token is at hand after an operation, a wakeup is pending**, if the operation is on
the send path or one was pending before. -/
theorem SendAlive.wakes_exec (h : SendAlive sid s) {i : ℕ} {t : Thread} {o : Outcome}
    (hi : s.threads[i]? = some t) (hsid : t.session = sid) (hcode : t.code = op :: rest)
    (ho : o = execOp cfg op ok replies sid s.shared (s.session sid) t.result)
    (hp : ∀ p, s'.pending p sid + [op].countP p = s.pending p sid + o.code.countP p)
    (hmode : o.session.ioMode = .ioNoneSending)
    (hplain : op.holds = false → op.wakes = false → op.enqueues = false →
      0 < s.pending Op.wakes sid) : 0 < s'.pending Op.wakes sid := by
  have ht := List.mem_of_getElem? hi
  have hpw := hp Op.wakes
  have htaken : op.holds = true → (s.session sid).ioMode = .ioSending := fun hh =>
    h.taken (pending_pos_of_next hi hsid hcode hh)
  have hnorecheck : op.rechecks = false := next_eq_false hi hsid hcode h.rechecks
  by_cases hoff : op.holds = false ∧ op.wakes = false ∧ op.enqueues = false
  · have hwake := hplain hoff.1 hoff.2.1 hoff.2.2
    have hzero : [op].countP Op.wakes = 0 := by simp [hoff.2.1]
    omega
  by_cases hkeep : op.holds = true ∧ op ≠ .sendIOCompleted
  · -- every holder but the completion keeps the token out
    have hm := execOp_ioMode ho hkeep.2 (by rintro rfl; cases hkeep.1) hnorecheck
    rw [hmode, htaken hkeep.1] at hm
    cases hm
  cases op with
  | enqueue packet =>
    -- the packet's own wakeup is behind it
    have hfollowed := h.followed t ht
    rw [hcode] at hfollowed
    have hrest : 0 < rest.countP Op.wakes := hfollowed.1 rfl
    obtain ⟨op', hop', hw⟩ := List.countP_pos_iff.mp hrest
    have hpw' := pending_pos (p := Op.wakes) ht (by rw [hcode]; exact List.mem_cons_of_mem _ hop') hw
    have hzero : [Op.enqueue packet].countP Op.wakes = 0 := rfl
    rw [hsid] at hpw'
    omega
  | sendPostCas =>
    rw [ho] at hmode
    cases hm : (s.session sid).ioMode <;> simp [execOp, hm] at hmode
  | sendPostRecheck => cases hnorecheck
  | sendPostReset => cases hnorecheck
  | sendCompleted =>
    have hcount : o.code.countP Op.wakes = 1 := by
      simp [ho, execOp, h.connected.1, sendPost, Op.wakes]
    have hone : [Op.sendCompleted].countP Op.wakes = 1 := rfl
    have hpos : 0 < s.pending Op.wakes sid := pending_pos_of_next hi hsid hcode rfl
    omega
  | sendIOCompleted =>
    have hcount : o.code.countP Op.wakes = 1 := by rw [ho]; rfl
    have hzero : [Op.sendIOCompleted].countP Op.wakes = 0 := rfl
    omega
  | _ => simp_all [Op.holds, Op.wakes, Op.enqueues]

/-- So something left over has a wakeup pending, after an operation as before. -/
theorem SendAlive.woken_exec (h : SendAlive sid s) {i : ℕ} {t : Thread} {o : Outcome}
    (hi : s.threads[i]? = some t) (hsid : t.session = sid) (hcode : t.code = op :: rest)
    (ho : o = execOp cfg op ok replies sid s.shared (s.session sid) t.result)
    (hp : ∀ p, s'.pending p sid + [op].countP p = s.pending p sid + o.code.countP p)
    (hmode : o.session.ioMode = .ioNoneSending)
    (hleft : o.session.sendQueue ≠ [] ∨ o.session.reservedBuffer ≠ none) :
    0 < s'.pending Op.wakes sid := by
  refine h.wakes_exec hi hsid hcode ho hp hmode fun hh hw he => ?_
  obtain ⟨hm, hq, hr⟩ := execOp_sendItem ho hh hw he
  exact h.woken (hm ▸ hmode) (by rwa [← hq, ← hr])

/-- A packet handler of the session replies with sized packets. -/
theorem sized_of_sendsOnly {i : ℕ} {t : Thread} (hc : sendsOnly sid s (.exec i ok replies) = true)
    (hi : s.threads[i]? = some t) (hsid : t.session = sid) (hcode : t.code = op :: rest) :
    ∀ p, op = .onRecvPacket p → ∀ packet ∈ replies, Sized packet := by
  rintro p rfl
  simp only [sendsOnly, executing_eq hi hcode] at hc
  exact of_decide_eq_true hc hsid

/-- What the threads carry fits the session after an operation on it. -/
theorem SendAlive.fits_exec (h : SendAlive sid s) {i : ℕ} {t : Thread}
    (hc : sendsOnly sid s (.exec i ok replies) = true) (hi : s.threads[i]? = some t)
    (hsid : t.session = sid) (hcode : t.code = op :: rest)
    (hs : Step cfg s (.exec i ok replies) s')
    (hse : s'.session sid =
      (execOp cfg op ok replies sid s.shared (s.session sid) t.result).session) :
    ∀ u ∈ s'.threads, u.session = sid → ∀ op' ∈ u.code, Fits (s'.session sid) op' := by
  have ht := List.mem_of_getElem? hi
  -- another operation than the one executed still fits: only a stream loop shortens the queue
  have hother : ∀ {u : Thread} {op' : Op}, u ∈ s.threads → u.session = sid → op' ∈ u.code →
      (op.loops = true → op'.holds = false) → Fits (s'.session sid) op' := by
    intro u op' hu husid hop' hnot
    rw [hse]
    refine (h.fits u hu husid op' hop').mono fun hloops' => length_le_execOp ?_
    by_contra hloops
    rw [Op.holds_of_loops hloops'] at hnot
    cases hnot (by simpa using hloops)
  have hone := fun hl => h.one_holder hi hsid hcode (Op.holds_of_loops hl)
  intro u hu husid op' hop'
  obtain ⟨j, hj⟩ := List.mem_iff_getElem?.mp hu
  rw [hs.exec_threads hi hcode, List.getElem?_set] at hj
  split at hj
  · split at hj
    · obtain rfl := Option.some.inj hj
      rcases List.mem_append.mp hop' with hnew | hrest
      · rw [hse]
        rw [hsid] at hnew
        exact fits_execOp (h.fits t ht hsid op (by rw [hcode]; exact List.mem_cons_self))
          (sized_of_sendsOnly hc hi hsid hcode) op' hnew
      · exact hother ht hsid (by rw [hcode]; exact List.mem_cons_of_mem _ hrest)
          fun hl => (hone hl).1 op' hrest
    · cases hj
  · rename_i hne
    exact hother (List.mem_of_getElem? hj) husid hop'
      fun hl => (hone hl).2 j u (Ne.symm hne) hj husid op' hop'

/-- **Every step that streams something keeps the send path alive.** -/
theorem sendAlive_step (h : SendAlive sid s) (hrc : RefCounted s)
    (hc : sendsOnly sid s e = true) (hb : streamsSomething sid s e = true)
    (hs : Step cfg s e s') : SendAlive sid s' where
  tokens := by
    have htok := h.tokens
    cases hs.alters sid with
    | kept hk =>
      obtain ⟨posted, completed, hse⟩ := hk.session
      rw [hk.tokens_eq, htok, hse]
    | entered threadId hid hnext hlt hse hsh hp =>
      rw [State.tokens, hse, hp, hrc.pending_new hid]
      rfl
    | @executed s' i t op rest o ok replies hi hsid hcode ho hse hsh hp =>
      have hbal := execOp_tokens ho (h.passesOn hc hb hi hsid hcode) fun hh =>
        h.taken (pending_pos_of_next hi hsid hcode hh)
      have hph := hp Op.holds
      rw [State.tokens] at htok ⊢
      rw [hse]
      omega
  woken := by
    cases hs.alters sid with
    | kept hk =>
      obtain ⟨posted, completed, hse⟩ := hk.session
      rw [hse]
      exact fun hm hleft => (h.woken hm hleft).trans_le (hk.pending_le _)
    | entered threadId hid hnext hlt hse hsh hp =>
      intro _ hleft
      rw [hse] at hleft
      simp [initSession, RIOSession.new] at hleft
    | executed ok replies hi hsid hcode ho hse hsh hp =>
      rw [hse]
      exact h.woken_exec hi hsid hcode ho hp
  connected := by
    cases hs.alters sid with
    | kept hk =>
      obtain ⟨posted, completed, hse⟩ := hk.session
      rw [hse]
      exact h.connected
    | entered threadId hid hnext hlt hse hsh hp => rw [hse]; exact ⟨rfl, rfl⟩
    | executed ok replies hi hsid hcode ho hse hsh hp =>
      have hno := next_eq_false hi hsid hcode h.disconnects
      obtain ⟨hsd, hic⟩ := execOp_sendDisconnect ho hno
      rw [hse, hsd, hic]
      exact h.connected
  disconnects := by
    cases hs.moves sid with
    | unmoved hse hmem hp => rw [hp]; exact h.disconnects
    | entered threadId hid hnext hlt hse hsh hp =>
      rw [hp, hrc.pending_new hid]
      rfl
    | called hi hsid hcall hse hsh hp =>
      obtain ⟨packet, -, rfl⟩ := sendPacket_of_called hc hi hsid hcall
      rw [hp, h.disconnects]
      rfl
    | completed data hk hse hsh hp => rw [hp]; exact h.disconnects
    | dequeued hi hcode hrole hk hse hsh hp => rw [hp]; exact h.disconnects
    | executed ok replies hi hsid hcode ho hse hsh hp =>
      have hpd := hp Op.disconnects
      have hzero := h.disconnects
      rw [ho, execOp_disconnects] at hpd
      omega
  rechecks := by
    cases hs.alters sid with
    | kept hk => rw [hk.pending]; exact h.rechecks
    | entered threadId hid hnext hlt hse hsh hp =>
      rw [hp, hrc.pending_new hid]
      rfl
    | executed ok replies hi hsid hcode ho hse hsh hp =>
      have hno := next_eq_false hi hsid hcode h.rechecks
      have hpr := hp Op.rechecks
      have hzero := h.rechecks
      rw [ho, execOp_rechecks hno] at hpr
      omega
  sized := by
    cases hs.alters sid with
    | kept hk =>
      obtain ⟨posted, completed, hse⟩ := hk.session
      rw [hse]
      exact ⟨h.sized.sendQueue, h.sized.reservedBuffer⟩
    | entered threadId hid hnext hlt hse hsh hp =>
      rw [hse]
      exact ⟨by simp [initSession, RIOSession.new], by simp [initSession, RIOSession.new]⟩
    | executed ok replies hi hsid hcode ho hse hsh hp =>
      rw [hse, ho]
      exact h.sized.exec (h.fits _ (List.mem_of_getElem? hi) hsid _
        (by rw [hcode]; exact List.mem_cons_self))
  fits := by
    have hold : (s'.session sid).sendQueue = (s.session sid).sendQueue → ∀ u ∈ s.threads,
        u.session = sid → ∀ op ∈ u.code, Fits (s'.session sid) op :=
      fun hq u hu husid op hop => (h.fits u hu husid op hop).mono fun _ => by rw [hq]
    cases hs with
    | acceptFailed i threadId => exact h.fits
    | @accepted i threadId ring t hi hcode hid =>
      by_cases hnew : sid = s.newSessionId
      · subst hnew
        refine forall_mem_set (fun u hu husid => ?_) fun _ op hop => ?_
        · exact absurd (hrc.drawn u hu) (Nat.not_le.mpr (husid ▸ lt_newSessionId))
        · simp only [makeNewSession, List.mem_cons, List.not_mem_nil, or_false] at hop
          rcases hop with rfl | rfl <;> exact trivial
      · exact forall_mem_set
          (hold (congrArg RIOSession.sendQueue (Function.update_of_ne hnew _ _)))
          fun husid => absurd husid.symm hnew
    | gotSession hi hcode hm =>
      exact forall_mem_set (hold rfl) fun _ op hop => by rw [hcode] at hop; cases hop
    | @called i t e code hi hcode hne hcall =>
      refine forall_mem_set (hold rfl) fun husid op hop => ?_
      obtain ⟨packet, hsized, rfl⟩ := sendPacket_of_called hc hi husid hcall
      simp only [RIOServer.sendPacket, sendPost, List.mem_cons, List.not_mem_nil, or_false] at hop
      rcases hop with rfl | rfl
      · exact hsized
      · exact trivial
    | @completed sid' k c data hk =>
      refine hold ?_
      by_cases hsid : sid = sid'
      · subst hsid
        simp [State.setSession]
      · exact congrArg RIOSession.sendQueue (Function.update_of_ne hsid _ _)
    | @dequeued i t sid' k c hi hcode hrole hk =>
      refine forall_mem_set (hold ?_) fun _ op hop => ?_
      · by_cases hsid : sid = sid'
        · subst hsid
          simp [State.setThread, State.setSession]
        · exact congrArg RIOSession.sendQueue (Function.update_of_ne hsid _ _)
      · rw [List.mem_singleton.mp hop]
        exact trivial
    | @executed i t op rest o ok replies hi hcode ho =>
      have hs' := Step.executed ok replies hi hcode ho
      by_cases hsid : t.session = sid
      · subst hsid
        exact h.fits_exec hc hi rfl hcode hs'
          ((Function.update_self _ _ _).trans (congrArg Outcome.session ho))
      · exact forall_mem_set
          (hold (congrArg RIOSession.sendQueue (Function.update_of_ne (Ne.symm hsid) _ _)))
          fun husid => absurd husid hsid
  followed := by
    have hold := h.followed
    cases hs with
    | acceptFailed i threadId => exact hold
    | accepted hi hcode hid =>
      exact forall_mem_set hold (woken_append (l := makeNewSession) rfl trivial)
    | gotSession hi hcode hm =>
      exact forall_mem_set hold (by rw [hcode]; exact trivial)
    | called hi hcode hne hcall => exact forall_mem_set hold hcall.woken
    | completed data hk => exact hold
    | dequeued hi hcode hrole hk =>
      exact forall_mem_set hold (woken_append (l := [_]) rfl trivial)
    | executed ok replies hi hcode ho =>
      subst ho
      have hw := hold _ (List.mem_of_getElem? hi)
      rw [hcode] at hw
      exact forall_mem_set hold hw.exec

/-! ## The result -/

/-- **A stream with nothing to send loses the token.** -/
theorem sendStuck_step (h : SendAlive sid s) (hrc : RefCounted s)
    (hb : ¬ streamsSomething sid s e = true) (hs : Step cfg s e s') : SendStuck sid s' := by
  rw [streamsSomething] at hb
  split at hb
  · rename_i t rest heq
    simp only [decide_eq_true_eq, not_forall, not_or, ne_eq, not_not] at hb
    obtain ⟨rfl, hqueue, hreserved⟩ := hb
    obtain ⟨i, ok, replies, rfl, hi, hcode⟩ := executing_eq_some heq
    have ht := List.mem_of_getElem? hi
    have hse := hs.exec_session hi hcode
    have hph := hs.exec_pending hi hcode Op.holds
    have htaken := h.taken (pending_pos_of_next hi rfl hcode rfl)
    have htok := h.tokens
    simp only [execOp, hreserved, hqueue] at hse hph
    refine ⟨by rw [hse]; exact htaken, ?_, (hrc.drawn t ht).trans hs.nextSessionId_le⟩
    rw [State.tokens, htaken] at htok
    rw [State.tokens, hse]
    simp [Op.holds, IoMode.taken] at hph htok
    omega
  · exact absurd rfl hb

/-- A run of the kind considered keeps the path alive as long as every stream has something to
send. -/
theorem sendAlive_of_run {s₀ : State} {es : List Event} (h₀ : (system cfg).Init s₀)
    (henv : (system cfg).Meets (fun s e => sendsOnly sid s e = true) s₀ es)
    (hmeets : (system cfg).Meets (fun s e => streamsSomething sid s e = true) s₀ es)
    (hrun : (system cfg).run s₀ es = some s) : RefCounted s ∧ SendAlive sid s := by
  obtain ⟨n, m, rfl⟩ := h₀
  refine (henv.and hmeets).invariant (P := fun s => RefCounted s ∧ SendAlive sid s)
    (fun s e s' hP hC hst => ?_) hrun ⟨refCounted_initial n m, sendAlive_initial n m sid⟩
  have hst' := step_cases hst
  exact ⟨refCounted_step hP.1 hst', sendAlive_step hP.2 hP.1 hC.1 hC.2 hst'⟩

/-- **Nothing is stranded in exactly the runs in which no stream has had nothing to send.** -/
theorem sendDrained_iff_streamsSomething {s₀ : State} {es : List Event} (h₀ : (system cfg).Init s₀)
    (henv : (system cfg).Meets (fun s e => sendsOnly sid s e = true) s₀ es)
    (hrun : (system cfg).run s₀ es = some s) (hidle : SendIdle sid s) :
    SendDrained sid s ↔
      (system cfg).Meets (fun s e => streamsSomething sid s e = true) s₀ es := by
  constructor
  · intro hdrained
    by_contra hunmet
    obtain ⟨es₁, e, es₂, t, u, rfl, hrun₁, hmeets, hbad, hstep, hrun₂⟩ :=
      System.exists_first_unmet hunmet hrun
    obtain ⟨hrc, hal⟩ := sendAlive_of_run h₀ henv.left_of_append hmeets hrun₁
    have hstuck : SendStuck sid s :=
      System.Meets.invariant (P := SendStuck sid) (fun _ _ _ hP _ hst => hP.step (step_cases hst))
        System.meets_true hrun₂ (sendStuck_step hal hrc hbad (step_cases hstep))
    have hmode := hdrained.ioMode
    rw [hstuck.taken] at hmode
    cases hmode
  · intro hmeets
    exact (sendAlive_of_run h₀ henv hmeets hrun).2.drained hidle

/-! ## Once something is sent -/

/-- No packet is enqueued on the session. -/
def sendsNothing (sid : SessionId) (s : State) (e : Event) : Bool :=
  match s.executing e with
  | some (t, .enqueue _, _) => t.session ≠ sid
  | _ => true

/-- The token is out, or somebody is about to ask for it. -/
def SendActive (sid : SessionId) (s : State) : Prop :=
  0 < s.tokens sid ∨ 0 < s.pending Op.wakes sid

/-- **An active send path stays active** as long as every stream has something to send. -/
theorem sendActive_step (hact : SendActive sid s) (h : SendAlive sid s) (h' : SendAlive sid s')
    (hrc : RefCounted s) (hs : Step cfg s e s') : SendActive sid s' := by
  cases hs.alters sid with
  | kept hk =>
    rw [SendActive, hk.tokens_eq]
    exact hact.imp_right fun hw => hw.trans_le (hk.pending_le _)
  | entered threadId hid hnext hlt hse hsh hp =>
    rw [SendActive, State.tokens, (hrc.untouched sid (hid ▸ lt_newSessionId)).outstanding,
      hrc.pending_new hid, hrc.pending_new hid] at hact
    omega
  | @executed s' i t op rest o ok replies hi hsid hcode ho hse hsh hp =>
    cases hm : o.session.ioMode with
    | ioSending =>
      left
      rw [h'.tokens, hse, hm]
      exact Nat.one_pos
    | ioNoneSending =>
      refine .inr (h.wakes_exec hi hsid hcode ho hp hm fun hh hw he => ?_)
      obtain ⟨hmode, -, -⟩ := execOp_sendItem ho hh hw he
      rw [hm] at hmode
      rcases hact with htok | hwake
      · rw [h.tokens, ← hmode] at htok
        exact absurd htok (lt_irrefl 0)
      · exact hwake

/-- An active session is not idle. -/
theorem SendIdle.not_active (h : SendIdle sid s) : ¬ SendActive sid s := by
  rintro (htok | hwake)
  · rw [State.tokens, h.outstanding, Nat.zero_add] at htok
    obtain ⟨t, ht, hsid, op, hop, hh⟩ := exists_of_pending_pos htok
    rw [(h.idle t ht hsid op hop).1] at hh
    cases hh
  · obtain ⟨t, ht, hsid, op, hop, hw⟩ := exists_of_pending_pos hwake
    rw [(h.idle t ht hsid op hop).2.1] at hw
    cases hw

/-- Enqueuing makes it active. -/
theorem sendActive_of_enqueue (h : SendAlive sid s) (h' : SendAlive sid s')
    (hno : ¬ sendsNothing sid s e = true) (hs : Step cfg s e s') : SendActive sid s' := by
  rw [sendsNothing] at hno
  split at hno
  · rename_i t packet rest heq
    obtain rfl : t.session = sid := by simpa using hno
    obtain ⟨i, ok, replies, rfl, hi, hcode⟩ := executing_eq_some heq
    have hse := hs.exec_session hi hcode
    cases hm : (s'.session t.session).ioMode with
    | ioSending =>
      left
      rw [h'.tokens, hm]
      exact Nat.one_pos
    | ioNoneSending =>
      exact .inr (h.wakes_exec hi rfl hcode rfl (hs.exec_pending hi hcode) (hse ▸ hm)
        fun _ _ he => by cases he)
  · exact absurd rfl hno

/-- The thread does not ask for the token before it has enqueued a packet. -/
def Led : List Op → Prop
  | [] => True
  | .sendPostCas :: _ => False
  | .enqueue _ :: _ => True
  | _ :: rest => Led rest

def Op.asks : Op → Bool
  | .sendPostCas | .enqueue _ => true
  | _ => false

theorem led_cons (h : op.asks = false) : Led (op :: rest) ↔ Led rest := by
  cases op with
  | sendPostCas => cases h
  | enqueue packet => cases h
  | _ => exact Iff.rfl

theorem led_append {l : List Op} (hl : l.countP Op.asks = 0) (h : Led rest) : Led (l ++ rest) := by
  induction l with
  | nil => exact h
  | cons op l ih =>
    rw [List.countP_cons] at hl
    have hop : op.asks = false := by
      by_contra ha
      simp [ha] at hl
    exact (led_cons hop).mpr (ih (by omega))

theorem execOp_asks (hw : op.wakes = false) (hh : op.holds = false)
    (hr : ∀ packet, op ≠ .onRecvPacket packet) :
    (execOp cfg op ok replies sid sh se res).code.countP Op.asks = 0 := by
  unfold execOp
  repeat' split
  all_goals
    simp_all [Op.asks, Op.wakes, Op.holds, recvPost, releaseSession, enterNewSession,
      List.countP_append, Function.comp_def]

theorem Led.exec (h : Led rest) (hw : op.wakes = false) (hh : op.holds = false) :
    Led ((execOp cfg op ok replies sid sh se res).code ++ rest) := by
  by_cases hr : ∃ packet, op = .onRecvPacket packet
  · obtain ⟨packet, rfl⟩ := hr
    cases replies with
    | nil => exact h
    | cons packet replies => exact trivial
  · exact led_append (execOp_asks hw hh fun packet hp => hr ⟨packet, hp⟩) h

/-- **A send path that nothing was enqueued on.** -/
structure SendUnsent (sid : SessionId) (s : State) : Prop where
  drained : SendDrained sid s
  tokens : s.tokens sid = 0
  resumes : s.pending Op.resumes sid = 0
  led : ∀ t ∈ s.threads, t.session = sid → Led t.code

theorem sendUnsent_initial (numOfWorkerThread senders : ℕ) (sid : SessionId) :
    SendUnsent sid (initialState numOfWorkerThread senders) := by
  refine ⟨⟨rfl, rfl, rfl⟩, ?_, pending_initial _ _, fun t ht _ => ?_⟩
  · rw [State.tokens, pending_initial]
    rfl
  · rw [(idle_initial ht).1]
    exact trivial

/-- An operation of an unsent send path is off it. -/
theorem SendUnsent.offPath (h : SendUnsent sid s) {i : ℕ} {t : Thread}
    (hno : sendsNothing sid s (.exec i ok replies) = true) (hi : s.threads[i]? = some t)
    (hsid : t.session = sid) (hcode : t.code = op :: rest) :
    op.holds = false ∧ op.wakes = false ∧ op.enqueues = false ∧ Led rest := by
  have hled := h.led t (List.mem_of_getElem? hi) hsid
  have htok := h.tokens
  rw [State.tokens] at htok
  rw [hcode] at hled
  have hnores : op.resumes = false := next_eq_false hi hsid hcode h.resumes
  have hholds : op.holds = false := next_eq_false hi hsid hcode (by omega)
  cases op with
  | sendPostCas => exact hled.elim
  | sendPostRecheck => cases hnores
  | sendCompleted => cases hnores
  | enqueue packet =>
    simp only [sendsNothing, executing_eq hi hcode] at hno
    exact absurd hsid (of_decide_eq_true hno)
  | _ => exact ⟨hholds, rfl, rfl, (led_cons rfl).mp hled⟩

/-- **A step that enqueues nothing on the session leaves it unsent.** -/
theorem sendUnsent_step (h : SendUnsent sid s) (hrc : RefCounted s)
    (hno : sendsNothing sid s e = true) (hs : Step cfg s e s') : SendUnsent sid s' := by
  have hd := h.drained
  have htok := h.tokens
  have hled : ∀ t ∈ s'.threads, t.session = sid → Led t.code := by
    have hold := h.led
    cases hs with
    | acceptFailed i threadId => exact hold
    | accepted hi hcode hid => exact forall_mem_set hold fun _ => trivial
    | gotSession hi hcode hm => exact forall_mem_set hold fun _ => by rw [hcode]; exact trivial
    | called hi hcode hne hcall =>
      exact forall_mem_set hold fun _ => by cases hcall <;> exact trivial
    | completed data hk => exact hold
    | dequeued hi hcode hrole hk => exact forall_mem_set hold fun _ => trivial
    | executed ok replies hi hcode ho =>
      refine forall_mem_set hold fun hsid => ?_
      obtain ⟨hh, hw, -, hrest⟩ := h.offPath hno hi hsid hcode
      rw [ho]
      exact hrest.exec hw hh
  cases hs.alters sid with
  | kept hk =>
    obtain ⟨posted, completed, hse⟩ := hk.session
    exact ⟨hd.congr (by rw [hse]) (by rw [hse]) (by rw [hse]), hk.tokens_eq.trans htok,
      (hk.pending _).trans h.resumes, hled⟩
  | entered threadId hid hnext hlt hse hsh hp =>
    refine ⟨⟨by rw [hse]; rfl, by rw [hse]; rfl, by rw [hse]; rfl⟩, ?_, ?_, hled⟩
    · rw [State.tokens, hse, hp, hrc.pending_new hid]
      rfl
    · rw [hp, hrc.pending_new hid]
      rfl
  | @executed s' i t op rest o ok replies hi hsid hcode ho hse hsh hp =>
    obtain ⟨hh, hw, he, -⟩ := h.offPath hno hi hsid hcode
    obtain ⟨hm, hq, hr⟩ := execOp_sendItem ho hh hw he
    obtain ⟨hholds, hresumes, hout⟩ := execOp_offPath ho hh hw
    have hph := hp Op.holds
    have hpr := hp Op.resumes
    have hres := h.resumes
    refine ⟨hd.congr (by rw [hse, hm]) (by rw [hse, hq]) (by rw [hse, hr]), ?_, by omega, hled⟩
    rw [State.tokens] at htok ⊢
    rw [hse, hout]
    omega

/-- **Packets are stranded as soon as one was sent.** Of the runs considered, exactly those that
enqueue nothing on the session leave it with `IO_NONE_SENDING`, an empty queue and no reserved
packet once nobody is sending. -/
theorem sendDrained_iff_sendsNothing {s₀ : State} {es : List Event} (h₀ : (system cfg).Init s₀)
    (henv : (system cfg).Meets (fun s e => sendsOnly sid s e = true) s₀ es)
    (hrun : (system cfg).run s₀ es = some s) (hidle : SendIdle sid s) :
    SendDrained sid s ↔
      (system cfg).Meets (fun s e => sendsNothing sid s e = true) s₀ es := by
  constructor
  · intro hdrained
    have hmeets := (sendDrained_iff_streamsSomething h₀ henv hrun hidle).mp hdrained
    by_contra hunmet
    obtain ⟨es₁, e, es₂, t, u, rfl, hrun₁, -, hbad, hstep, hrun₂⟩ :=
      System.exists_first_unmet hunmet hrun
    have henv₂ := henv.of_append hrun₁
    have hmeets₂ := hmeets.of_append hrun₁
    obtain ⟨hrc, hal⟩ := sendAlive_of_run h₀ henv.left_of_append hmeets.left_of_append hrun₁
    have hst := step_cases hstep
    have hal' := sendAlive_step hal hrc henv₂.1 hmeets₂.1 hst
    -- the packet keeps the path active to the end of the run
    have hend : RefCounted s ∧ SendAlive sid s ∧ SendActive sid s := by
      refine ((henv₂.2 u hstep).and (hmeets₂.2 u hstep)).invariant
        (P := fun s => RefCounted s ∧ SendAlive sid s ∧ SendActive sid s)
        (fun s e s' hP hC hst => ?_) hrun₂
        ⟨refCounted_step hrc hst, hal', sendActive_of_enqueue hal hal' hbad hst⟩
      have hst' := step_cases hst
      have hnext := sendAlive_step hP.2.1 hP.1 hC.1 hC.2 hst'
      exact ⟨refCounted_step hP.1 hst', hnext, sendActive_step hP.2.2 hP.2.1 hnext hP.1 hst'⟩
    exact hidle.not_active hend.2.2
  · intro hmeets
    obtain ⟨n, m, rfl⟩ := h₀
    have hunsent : RefCounted s ∧ SendUnsent sid s := by
      refine System.Meets.invariant (P := fun s => RefCounted s ∧ SendUnsent sid s)
        (fun s e s' hP hC hst => ?_) hmeets hrun
        ⟨refCounted_initial n m, sendUnsent_initial n m sid⟩
      have hst' := step_cases hst
      exact ⟨refCounted_step hP.1 hst', sendUnsent_step hP.2 hP.1 hC hst'⟩
    exact hunsent.2.drained

/-- A run that sends nothing: a client connects, and another thread looks its session up. -/
theorem sendDrained_unsent : ∃ es s,
    (system checksumConfig).run (initialState 1 1) es = some s ∧ SendIdle 2 s ∧
      (SendDrained 2 s ↔ (system checksumConfig).Meets (fun s e => sendsNothing 2 s e = true)
        (initialState 1 1) es) := by
  obtain ⟨s, hm, hrun, hidle⟩ := System.exists_run (system checksumConfig)
    (.accept 0 0 [] true :: execs 0 7 ++ [.getSession 2 2])
    (s := initialState 1 1) (c := sendsOnly 2) (f := fun s => decide (SendIdle 2 s))
    (by decide +kernel)
  exact ⟨_, s, hrun, of_decide_eq_true hidle,
    sendDrained_iff_sendsNothing ⟨1, 1, rfl⟩ hm hrun (of_decide_eq_true hidle)⟩

/-- **One packet is enough.** After its completion the worker enters `SendPost` again, makes a
stream of nothing, and returns with `IO_SENDING`. -/
theorem not_sendDrained : ¬ ∀ es s,
    (system checksumConfig).Meets (fun s e => sendsOnly 2 s e = true) (initialState 1 1) es →
    (system checksumConfig).run (initialState 1 1) es = some s → SendIdle 2 s →
    SendDrained 2 s := by
  intro hall
  obtain ⟨s, hm, hrun, hf⟩ := System.exists_run (system checksumConfig)
    (.accept 0 0 [] true :: execs 0 7 ++ [.getSession 2 2, .sendPacket 2 [7]] ++ execs 2 9 ++
      [.complete 2 1 [7], .dequeue 1 2 0] ++ execs 1 9)
    (s := initialState 1 1) (c := sendsOnly 2)
    (f := fun s => decide (SendIdle 2 s ∧ (s.session 2).ioMode = .ioSending))
    (by decide +kernel)
  obtain ⟨hidle, hmode⟩ := of_decide_eq_true hf
  have hdrained := (hall _ s hm hrun hidle).ioMode
  rw [hmode] at hdrained
  cases hdrained

end RIOServer

end DdingGameServer
