import DdingGameServer.RIOServer.Exclusive
import DdingGameServer.RIOServer.SendStream
/-!
# RIOServer — sending before disconnecting

`SendPacketAndDisconnect` sets `sendDisconnect` and then enqueues its packet; `SendCompleted` looks
at the flag alone. A completion handled between the two, or while the packet still waits behind an
earlier send, disconnects the session with the packet unsent. What the send path owes is a matter
of order: the packets enqueued are those of the streams given to `RIOSend`, then those on the way
there, so the closing packet has had its stream exactly when nothing enqueued up to it is waiting
any more.

Not every packet of a stream is in it. `MakeSendStream` copies the first to the start of
`rioSendBuffer` and each further one beside it, so that of these `RIOSend` never gets a byte. A
packet was handed over if its stream was, with the packet at its start. A copy that `memcpy_s`
refuses ends the process, which is not followed here: the runs are those of the server, and some
that go on.
-/

namespace DdingGameServer

namespace RIOServer

variable {cfg : NetConfig} {s s' : State} {e : Event} {sid : SessionId} {op op' : Op} {ok : Bool}
  {replies : List NetBuffer} {sh : Shared} {se : RIOSession} {res : IoPostError} {o : Outcome}

/-! ## What is waiting -/

/-- The packets of a stream that is being formed: taken out of the queue, not handed to
`RIOSend`. -/
def Op.copied : Op → List NetBuffer
  | .streamLoop _ _ _ copied | .countSend _ copied | .rioSend _ copied => copied
  | _ => []

/-- The streams being formed on the session. -/
def State.formed (sid : SessionId) (s : State) : List NetBuffer :=
  (s.codeOn sid).flatMap Op.copied

/-- The packets enqueued on the session that `RIOSend` has not been given, oldest first. -/
def State.waiting (sid : SessionId) (s : State) : List NetBuffer :=
  s.formed sid ++ (s.session sid).reservedBuffer.toList ++ (s.session sid).sendQueue

/-- The packets of a stream from the one on that finds `totalSendSize` bytes before it, and whether
`MakeSendStream` copies them into `rioSendBuffer`. A packet that was kept is copied to where the
first from the queue is. -/
def landings (totalSendSize : ℕ) : List NetBuffer → List (NetBuffer × Bool)
  | [] => []
  | packet :: rest =>
    (packet, decide (queuedCopy (totalSendSize + packet.length) packet).Inside) ::
      landings (totalSendSize + packet.length) rest

/-- What was asked of the send path of one session, and what it did. -/
structure SendHistory where
  /-- The packets enqueued, in order. -/
  enqueued : List NetBuffer
  /-- The threads in `SendPacketAndDisconnect` that have set the flag and not enqueued yet. -/
  closing : List ℕ
  /-- How many packets were enqueued up to the last packet of such a call, that one included. -/
  closed : ℕ
  /-- The places, in `enqueued`, of the packets that `MakeSendStream` took from the queue behind
  another one of their stream. -/
  behind : List ℕ
  /-- The packets of the streams `RIOSend` was given, and whether it was given theirs. -/
  sent : List (NetBuffer × Bool)
  deriving DecidableEq

/-- No packet was enqueued. -/
def SendHistory.start : SendHistory := ⟨[], [], 0, [], []⟩

/-- The history after an operation of the thread at place `i` on the session. -/
def SendHistory.exec (h : SendHistory) (i : ℕ) (ok : Bool) (se : RIOSession) (op : Op) :
    SendHistory :=
  match op with
  | .setSendDisconnect => { h with closing := i :: h.closing }
  | .enqueue packet =>
    { h with
      enqueued := h.enqueued ++ [packet]
      closing := h.closing.filter (· ≠ i)
      closed := if i ∈ h.closing then h.enqueued.length + 1 else h.closed }
  | .streamLoop _ (_ + 1) totalSendSize _ =>
    match se.sendQueue with
    | [] => h
    | packet :: sendQueue =>
      -- a packet that does not fit is kept, and begins the next stream; the queue holds the packets
      -- enqueued last
      if 0 < totalSendSize ∧ totalSendSize + packet.length < maxSendBufferSize then
        { h with behind := (h.enqueued.length - (packet :: sendQueue).length) :: h.behind }
      else h
  | .rioSend _ copied => if ok then { h with sent := h.sent ++ landings 0 copied } else h
  | _ => h

/-- And after a step. -/
def SendHistory.record (sid : SessionId) (h : SendHistory) (s : State) (e : Event) : SendHistory :=
  match e, s.executing e with
  | .exec i ok _, some (t, op, _) =>
    if t.session = sid then h.exec i ok (s.session sid) op else h
  | _, _ => h

/-- **The server with the history of one session's send path.** -/
def closingSystem (cfg : NetConfig) (sid : SessionId) : System (State × SendHistory) Event :=
  (system cfg).recorded .start (SendHistory.record sid)

/-! ## What is asked, what is assumed, and what decides it -/

/-- **When `SendCompleted` disconnects the session, every closing call has enqueued its packet, and
that packet and all before it were handed to `RIOSend`.** -/
def sendsFirst (sid : SessionId) (x : State × SendHistory) (e : Event) : Bool :=
  match x.1.executing e with
  | some (t, .sendCompleted, _) =>
    t.session = sid → (x.1.session sid).sendDisconnect = true →
      x.2.closing = [] ∧ (x.2.enqueued.take x.2.closed).map (·, true) <+: x.2.sent
  | _ => true

/-- **When `SendCompleted` finds the flag set**, no thread stands between setting it and enqueueing,
only packets enqueued after the last closing one are waiting, and none up to that one was put behind
another in its stream. -/
def findsSent (sid : SessionId) (x : State × SendHistory) (e : Event) : Bool :=
  match x.1.executing e with
  | some (t, .sendCompleted, _) =>
    t.session = sid → (x.1.session sid).sendDisconnect = true →
      x.2.closing = [] ∧ x.2.closed + (x.1.waiting sid).length ≤ x.2.enqueued.length ∧
        ∀ k ∈ x.2.behind, x.2.closed ≤ k
  | _ => true

/-- `RIOSend` succeeds on the session, and no packet is empty, as a `NetBuffer` with its header is
not. -/
def sendsSucceed (sid : SessionId) (s : State) (e : Event) : Bool :=
  match e with
  | .sendPacket i packet | .sendPacketAndDisconnect i packet =>
    (s.threads[i]?.map Thread.session) = some sid → packet ≠ []
  | .exec _ ok replies =>
    match s.executing e with
    | some (t, .rioSend _ _, _) => t.session = sid → ok = true
    | some (t, .onRecvPacket _, _) => t.session = sid → ∀ packet ∈ replies, packet ≠ []
    | _ => true
  | _ => true

/-! ## Which packets are beside the buffer -/

/-- The packets of a list that begins at the place `n`, and whether they are not behind another. -/
def marked (behind : List ℕ) (n : ℕ) : List NetBuffer → List (NetBuffer × Bool)
  | [] => []
  | packet :: rest => (packet, decide (n ∉ behind)) :: marked behind (n + 1) rest

section Marked

variable {behind : List ℕ} {n k totalSendSize : ℕ} {packet : NetBuffer} {l l' : List NetBuffer}

theorem marked_append : marked behind n (l ++ l') =
    marked behind n l ++ marked behind (n + l.length) l' := by
  induction l generalizing n with
  | nil => rfl
  | cons packet l ih =>
    rw [List.cons_append, marked, marked, ih, List.cons_append, List.length_cons,
      Nat.add_right_comm, Nat.add_assoc]

@[simp] theorem length_marked : (marked behind n l).length = l.length := by
  induction l generalizing n with
  | nil => rfl
  | cons packet l ih => rw [marked, List.length_cons, ih, List.length_cons]

theorem getElem?_marked : (marked behind n l)[k]? =
    l[k]?.map fun packet => (packet, decide (n + k ∉ behind)) := by
  induction l generalizing n k with
  | nil => rfl
  | cons packet l ih =>
    cases k with
    | zero => rfl
    | succ k => rw [marked, List.getElem?_cons_succ, List.getElem?_cons_succ, ih,
        Nat.add_right_comm, Nat.add_assoc]

/-- A place further on does not count. -/
theorem marked_cons (h : n + l.length ≤ k) : marked (k :: behind) n l = marked behind n l := by
  induction l generalizing n with
  | nil => rfl
  | cons packet l ih =>
    rw [List.length_cons] at h
    have hne : n ≠ k := by omega
    rw [marked, marked, ih (by omega)]
    simp [hne]

theorem marked_eq_map (h : ∀ k ∈ behind, n + l.length ≤ k) :
    marked behind n l = l.map (·, true) := by
  refine List.ext_getElem? fun k => ?_
  rw [getElem?_marked, List.getElem?_map]
  rcases Nat.lt_or_ge k l.length with hk | hk
  · have hnot : n + k ∉ behind := fun hmem => by
      have := h _ hmem
      omega
    rw [decide_eq_true hnot]
  · rw [List.getElem?_eq_none hk]
    rfl

theorem landings_append : landings totalSendSize (l ++ l') =
    landings totalSendSize l ++ landings (totalSendSize + l.flatten.length) l' := by
  induction l generalizing totalSendSize with
  | nil => rfl
  | cons packet l ih =>
    rw [List.cons_append, landings, landings, ih, List.cons_append, List.flatten_cons,
      List.length_append, Nat.add_assoc]

/-- A packet lands in the buffer exactly if it is the first of its stream. -/
theorem landings_singleton (h : totalSendSize + packet.length < maxSendBufferSize) :
    landings totalSendSize [packet] = [(packet, decide (totalSendSize = 0))] := by
  have hinside : (queuedCopy (totalSendSize + packet.length) packet).Inside ↔
      totalSendSize = 0 := by
    rcases Nat.eq_zero_or_pos totalSendSize with rfl | hpos
    · refine iff_of_true ?_ rfl
      simp only [MemcpyS.Inside, queuedCopy, Nat.zero_add, Nat.sub_self, Nat.zero_mul]
      omega
    · exact iff_of_false (not_inside_queuedCopy hpos) hpos.ne'
  simp only [landings, hinside]

end Marked

/-- **The packets enqueued are those of the streams given to `RIOSend`, those of the stream that is
being formed, and the rest**; and those are in their streams that are not behind another. -/
structure Laid (h : SendHistory) (handed formed rest : List NetBuffer) : Prop where
  enqueued : h.enqueued = handed ++ (formed ++ rest)
  sent : h.sent = marked h.behind 0 handed
  stream : landings 0 formed = marked h.behind handed.length formed
  behind : ∀ k ∈ h.behind, k < handed.length + formed.length

section Laid

variable {h h' : SendHistory} {handed formed rest rest' : List NetBuffer} {packet : NetBuffer}

theorem laid_start : Laid .start [] [] [] :=
  ⟨rfl, rfl, rfl, fun _ hk => absurd hk List.not_mem_nil⟩

/-- What is asked later is with the rest. -/
theorem Laid.congr (hl : Laid h handed formed rest)
    (henqueued : h'.enqueued = handed ++ (formed ++ rest')) (hsent : h'.sent = h.sent)
    (hbehind : h'.behind = h.behind) : Laid h' handed formed rest' :=
  ⟨henqueued, by rw [hsent, hbehind, hl.sent], by rw [hbehind, hl.stream], hbehind ▸ hl.behind⟩

/-- A stream begins with the packet that was kept. -/
theorem Laid.keep (hl : Laid h handed [] (packet :: rest))
    (hvalid : packet.length < maxSendBufferSize) : Laid h handed [packet] rest where
  enqueued := hl.enqueued
  sent := hl.sent
  stream := by
    have hnot : handed.length ∉ h.behind := fun hmem => Nat.lt_irrefl _ (hl.behind _ hmem)
    rw [landings_singleton (by omega), marked, marked, decide_eq_true hnot]
    rfl
  behind k hk := Nat.lt_succ_of_lt (hl.behind k hk)

/-- **A packet is taken behind those of the stream.** -/
theorem Laid.take {totalSendSize : ℕ} (hl : Laid h handed formed (packet :: rest))
    (htotal : totalSendSize = formed.flatten.length) (hnil : totalSendSize = 0 → formed = [])
    (hroom : totalSendSize + packet.length < maxSendBufferSize) :
    Laid (if 0 < totalSendSize then
        { h with behind := (h.enqueued.length - (packet :: rest).length) :: h.behind } else h)
      handed (formed ++ [packet]) rest := by
  have hplace : h.enqueued.length - (packet :: rest).length = handed.length + formed.length := by
    rw [hl.enqueued, List.length_append, List.length_append]
    omega
  have henqueued : h.enqueued = handed ++ (formed ++ [packet] ++ rest) := by
    rw [hl.enqueued, List.append_assoc, List.singleton_append]
  have hlast := landings_singleton hroom
  have hnot : handed.length + formed.length ∉ h.behind := fun hmem =>
    Nat.lt_irrefl _ (hl.behind _ hmem)
  rcases Nat.eq_zero_or_pos totalSendSize with hzero | hpos
  · rw [if_neg (by omega)]
    obtain rfl := hnil hzero
    rw [hzero] at hlast
    refine ⟨henqueued, hl.sent, ?_, fun k hk => Nat.lt_succ_of_lt (hl.behind k hk)⟩
    have hnot : handed.length ∉ h.behind := hnot
    rw [List.nil_append, hlast, marked, marked, decide_eq_true hnot]
    rfl
  · rw [if_pos hpos, hplace]
    refine ⟨henqueued, ?_, ?_, fun k hk => ?_⟩
    · rw [hl.sent, marked_cons (by omega)]
    · rw [landings_append, hl.stream, Nat.zero_add, ← htotal, hlast, marked_append,
        marked_cons (Nat.le_refl _), marked, marked]
      simp [hpos.ne']
    · rw [List.length_append, List.length_singleton]
      rcases List.mem_cons.mp hk with rfl | hk
      · omega
      · have := hl.behind k hk
        omega

/-- **The stream is given to `RIOSend`.** -/
theorem Laid.send (hl : Laid h handed formed rest) :
    Laid { h with sent := h.sent ++ landings 0 formed } (handed ++ formed) [] rest where
  enqueued := by rw [hl.enqueued, List.nil_append, List.append_assoc]
  sent := by
    rw [marked_append, Nat.zero_add]
    exact congrArg₂ _ hl.sent hl.stream
  stream := rfl
  behind k hk := by
    have := hl.behind k hk
    rw [List.length_append]
    exact this

/-- **The packets enqueued up to a point were handed over exactly when only later ones are waiting,
and none of them was put behind another.** -/
theorem Laid.prefix_iff (hl : Laid h handed formed rest) (hclosed : h.closed ≤ h.enqueued.length) :
    (h.enqueued.take h.closed).map (·, true) <+: h.sent ↔
      h.closed + (formed ++ rest).length ≤ h.enqueued.length ∧ ∀ k ∈ h.behind, h.closed ≤ k := by
  have hlen := congrArg List.length hl.enqueued
  rw [List.length_append] at hlen
  constructor
  · intro hpre
    have hle := hpre.length_le
    rw [List.length_map, List.length_take, hl.sent, length_marked] at hle
    refine ⟨by omega, fun k hk => ?_⟩
    by_contra hlt
    have hk' : k < h.closed := Nat.not_le.mp hlt
    -- what stands at its place was not sent
    have hget := List.prefix_iff_getElem?.mp hpre k (by simp; omega)
    rw [hl.sent, getElem?_marked, Nat.zero_add, decide_eq_false (not_not.mpr hk),
      List.getElem_map] at hget
    simp at hget
  · rintro ⟨hle, hbehind⟩
    have hclosed' : h.closed ≤ handed.length := by omega
    have hsplit : handed = handed.take h.closed ++ handed.drop h.closed :=
      (List.take_append_drop _ _).symm
    have hfirst : marked h.behind 0 (handed.take h.closed) =
        (handed.take h.closed).map (·, true) := by
      refine marked_eq_map fun k hk => ?_
      rw [List.length_take]
      have := hbehind k hk
      omega
    rw [hl.enqueued, List.take_append_of_le_length hclosed', hl.sent, ← hfirst]
    conv_rhs => rw [hsplit, marked_append]
    exact List.prefix_append _ _

end Laid

/-! ## One stream at a time -/

/-- The class of one operation. -/
def Op.is (op : Op) : Op → Bool := fun op' => op' = op

/-- Two operations of a class are both counted in it. -/
theorem countP_is_add_le {l : List Op} {p : Op → Bool} (hne : op ≠ op') (hop : p op = true)
    (hop' : p op' = true) : l.countP op'.is + l.countP op.is ≤ l.countP p := by
  induction l with
  | nil => simp
  | cons x l ih =>
    simp only [List.countP_cons, Op.is]
    by_cases hx : x = op
    · subst hx
      simp [hop, hne] at ih ⊢
      omega
    · by_cases hx' : x = op'
      · subst hx'
        simp [hop', hx] at ih ⊢
        omega
      · simp [hx, hx'] at ih ⊢
        omega

theorem countP_is_le {l : List Op} {p : Op → Bool} (hop : p op = true) :
    l.countP op.is ≤ l.countP p := by
  refine List.countP_mono_left fun x _ hx => ?_
  obtain rfl : x = op := by simpa [Op.is] using hx
  exact hop

/-- An operation a thread is about to execute is pending. -/
theorem pending_is_pos {i : ℕ} {t : Thread} {rest : List Op} (hi : s.threads[i]? = some t)
    (hcode : t.code = op :: rest) : 0 < s.pending op.is t.session :=
  pending_pos_of_next hi rfl hcode (by simp [Op.is])

theorem copied_of_owns (h : op.owns = false) : op.copied = [] := by
  cases op <;> first | rfl | cases h

/-- Code with one owner forms the owner's stream. -/
theorem flatMap_copied {l : List Op} (hone : l.countP Op.owns ≤ 1) (hop : op ∈ l)
    (howns : op.owns = true) : l.flatMap Op.copied = op.copied := by
  have hnil : ∀ l : List Op, l.countP Op.owns = 0 → l.flatMap Op.copied = [] := by
    intro l hzero
    refine List.flatMap_eq_nil_iff.mpr fun op' hop' => copied_of_owns ?_
    simpa using List.countP_eq_zero.mp hzero op' hop'
  induction l with
  | nil => cases hop
  | cons a l ih =>
    rw [List.countP_cons] at hone
    rw [List.flatMap_cons]
    rcases List.mem_cons.mp hop with rfl | hmem
    · rw [howns] at hone
      rw [hnil l (by simpa using hone), List.append_nil]
    · have hpos : 0 < l.countP Op.owns := List.countP_pos_iff.mpr ⟨op, hmem, howns⟩
      have ha : a.owns = false := by
        by_contra ha
        simp only [Bool.not_eq_false] at ha
        rw [ha] at hone
        simp only [if_true] at hone
        omega
      rw [copied_of_owns ha, List.nil_append, ih (by omega) hmem]

theorem Owned.pending_le_one (how : Owned sid s) : s.pending Op.owns sid ≤ 1 := by
  have hsend := how.sends
  have htaken := (s.session sid).ioMode.taken_le_one
  omega

/-- One thread is in `MakeSendStream`, at one operation of it. -/
theorem Owned.eq_of_streams (how : Owned sid s) (hst : op.streams = true)
    (hst' : op'.streams = true) (hpos : 0 < s.pending op.is sid)
    (hpos' : 0 < s.pending op'.is sid) : op = op' ∧ s.pending op.is sid ≤ 1 := by
  have hone := how.apart
  rw [pending_eq_countP] at hpos hpos' hone ⊢
  by_cases heq : op = op'
  · have := countP_is_le (l := s.codeOn sid) hst
    exact ⟨heq, by omega⟩
  · have := countP_is_add_le (l := s.codeOn sid) heq hst hst'
    omega

/-- **The owner's stream is the one being formed.** -/
theorem Owned.formed_eq (how : Owned sid s) (howns : op.owns = true)
    (hpos : 0 < s.pending op.is sid) : s.formed sid = op.copied := by
  have hone := how.pending_le_one
  rw [pending_eq_countP] at hone hpos
  obtain ⟨op', hop', heq⟩ := List.countP_pos_iff.mp hpos
  obtain rfl : op' = op := by simpa [Op.is] using heq
  exact flatMap_copied hone hop' howns

/-- Where nobody is about to form one, there is none. -/
theorem formed_eq_nil (h : ∀ op : Op, op.copied ≠ [] → s.pending op.is sid = 0) :
    s.formed sid = [] := by
  refine List.flatMap_eq_nil_iff.mpr fun op hop => ?_
  by_contra hne
  have hzero := h op hne
  rw [pending_eq_countP, List.countP_eq_zero] at hzero
  exact hzero op hop (by simp [Op.is])

/-- The stream being formed is a matter of what is pending. -/
theorem Owned.formed_congr (how : Owned sid s) (how' : Owned sid s')
    (h : ∀ op : Op, op.copied ≠ [] → s'.pending op.is sid = s.pending op.is sid) :
    s'.formed sid = s.formed sid := by
  by_cases hex : ∃ op : Op, op.copied ≠ [] ∧ 0 < s.pending op.is sid
  · obtain ⟨op, hne, hpos⟩ := hex
    have howns : op.owns = true := by
      by_contra ho
      exact hne (copied_of_owns (by simpa using ho))
    rw [how.formed_eq howns hpos, how'.formed_eq howns (by rw [h op hne]; exact hpos)]
  · push Not at hex
    have hzero : ∀ op : Op, op.copied ≠ [] → s.pending op.is sid = 0 :=
      fun op hne => Nat.le_zero.mp (hex op hne)
    rw [formed_eq_nil hzero, formed_eq_nil fun op hne => by rw [h op hne]; exact hzero op hne]

/-! ## One operation -/

/-- A stream loop has given the reserved packet its place, has counted the bytes of its packets, and
is empty where there are none. -/
structure StreamCounted (reservedBuffer : Option NetBuffer) (totalSendSize : ℕ)
    (copied : List NetBuffer) : Prop where
  reservedBuffer : reservedBuffer = none
  total : totalSendSize = copied.flatten.length
  nil : totalSendSize = 0 → copied = []

theorem StreamCounted.take {totalSendSize : ℕ} {copied : List NetBuffer} {packet : NetBuffer}
    (h : StreamCounted se.reservedBuffer totalSendSize copied) (hne : packet ≠ []) :
    StreamCounted se.reservedBuffer (totalSendSize + packet.length) (copied ++ [packet]) where
  reservedBuffer := h.reservedBuffer
  total := by simp [h.total]
  nil hzero := absurd (List.eq_nil_of_length_eq_zero (Nat.eq_zero_of_add_eq_zero_left hzero)) hne

/-- What an operation needs to hand its packets on; a packet has bytes. -/
def Forming (se : RIOSession) : Op → Prop
  | .streamLoop _ _ totalSendSize copied => StreamCounted se.reservedBuffer totalSendSize copied
  | .enqueue packet => packet ≠ []
  | _ => True

theorem Forming.congr {se' : RIOSession} (h : Forming se op)
    (hr : se'.reservedBuffer = se.reservedBuffer) : Forming se' op := by
  cases op with
  | streamLoop => exact show StreamCounted se'.reservedBuffer _ _ from hr ▸ h
  | _ => exact h

/-- The packets of the session have bytes. -/
structure Filled (se : RIOSession) : Prop where
  sendQueue : ∀ b ∈ se.sendQueue, b ≠ []
  reservedBuffer : ∀ b, se.reservedBuffer = some b → b ≠ []

theorem Filled.exec (h : Filled se) (hf : Forming se op) :
    Filled (execOp cfg op ok replies sid sh se res).session := by
  unfold execOp
  repeat' split
  all_goals
    obtain ⟨hq, hr⟩ := h
    constructor <;> simp_all [Forming]
  grind

section Owner

variable {h : SendHistory} {i : ℕ}

/-- **An owner moves packets along, loses none, and keeps the books.** -/
theorem Laid.exec (hl : Laid h se.handed op.copied (se.reservedBuffer.toList ++ se.sendQueue))
    (ho : o = execOp cfg op ok replies sid sh se res) (howns : op.owns = true)
    (hf : Forming se op) (hok : ∀ context copied, op = .rioSend context copied → ok = true)
    (hcrash : o.shared.crashed = false) :
    Laid (h.exec i ok se op) o.session.handed (o.code.flatMap Op.copied)
      (o.session.reservedBuffer.toList ++ o.session.sendQueue) := by
  cases op with
  | rioSend context copied =>
    obtain rfl := hok _ _ rfl
    subst ho
    exact hl.send
  | countSend context copied =>
    subst ho
    simpa [execOp, SendHistory.exec, Op.copied] using hl
  | streamLoop context count totalSendSize copied =>
    obtain ⟨hnone, htotal, hnil⟩ := hf
    cases count with
    | zero =>
      subst ho
      simp only [execOp]
      split
      · rename_i hzero
        obtain rfl := hnil hzero
        exact hl
      · simpa [SendHistory.exec, Op.copied] using hl
    | succ count =>
      rw [hnone] at hl
      cases hq : se.sendQueue with
      | nil =>
        simp [ho, execOp, hq] at hcrash
      | cons packet sendQueue =>
        rw [hq] at hl
        simp only [execOp, hq] at ho
        simp only [SendHistory.exec, hq]
        split at ho
        · split at ho
          · -- the packet is kept for the next stream
            rename_i hfull
            rw [if_neg (by omega)]
            subst ho
            simpa [Op.copied] using hl
          · rename_i hroom
            have htake := hl.take htotal hnil (Nat.not_le.mp hroom)
            subst ho
            simpa [Op.copied, hnone, Nat.not_le.mp hroom] using htake
        · subst ho
          cases hcrash
  | makeSendStream =>
    cases hr : se.reservedBuffer with
    | none =>
      subst ho
      simpa [execOp, hr, SendHistory.exec, Op.copied] using hl
    | some b =>
      rw [hr] at hl
      simp only [execOp, hr] at ho
      split at ho
      · rename_i hvalid
        subst ho
        simpa [SendHistory.exec, Op.copied] using hl.keep (of_decide_eq_true hvalid)
      · subst ho
        cases hcrash
  | sendPostCheck | sendPostReset | sendIOCompleted =>
    subst ho
    simp only [execOp]
    repeat' split
    all_goals simpa [SendHistory.exec, Op.copied, sendPost] using hl
  | getIOCompletedContext c data =>
    subst ho
    simp only [execOp]
    repeat' split
    all_goals simpa [SendHistory.exec, Op.copied, Shared.freeContext] using hl
  | _ => cases howns

end Owner

/-- The others leave it to the owner. -/
theorem execOp_keeps (ho : o = execOp cfg op ok replies sid sh se res) (howns : op.owns = false)
    (he : op.enqueues = false) :
    o.session.handed = se.handed ∧ o.session.reservedBuffer = se.reservedBuffer ∧
      o.session.sendQueue = se.sendQueue := by
  subst ho
  unfold execOp
  repeat' split
  all_goals simp_all [Op.owns, Op.enqueues]

theorem execOp_copied (ho : o = execOp cfg op ok replies sid sh se res) (howns : op.owns = false) :
    ∀ op' ∈ o.code, op'.copied = [] := by
  subst ho
  unfold execOp
  repeat' split
  all_goals
    simp_all [Op.owns, Op.copied, sendPost, recvPost, releaseSession, enterNewSession, sendPacket]
  all_goals grind [Op.copied]

/-- What an operation leads to has what it needs. -/
theorem execOp_forming (ho : o = execOp cfg op ok replies sid sh se res) (hfill : Filled se)
    (hf : Forming se op)
    (hr : ∀ packet, op = .onRecvPacket packet → ∀ packet ∈ replies, packet ≠ []) :
    ∀ op' ∈ o.code, Forming o.session op' := by
  have htake : ∀ {b sendQueue totalSendSize copied}, se.sendQueue = b :: sendQueue →
      StreamCounted se.reservedBuffer totalSendSize copied →
        StreamCounted se.reservedBuffer (totalSendSize + b.length) (copied ++ [b]) :=
    fun {b _ _ _} hq hc => hc.take (hfill.sendQueue b (by rw [hq]; exact List.mem_cons_self))
  have hstart : StreamCounted none 0 [] := ⟨rfl, rfl, fun _ => rfl⟩
  have hkept : ∀ b, se.reservedBuffer = some b → StreamCounted none b.length [b] := fun b hb =>
    ⟨rfl, by simp, fun hzero =>
      absurd (List.eq_nil_of_length_eq_zero hzero) (hfill.reservedBuffer b hb)⟩
  subst ho
  unfold execOp
  repeat' split
  all_goals
    simp_all [Forming, sendPost, recvPost, releaseSession, enterNewSession, sendPacket]
  all_goals grind [Forming]

/-- Outside `MakeSendStream` the reserved packet stays where it is. -/
theorem execOp_reservedBuffer (ho : o = execOp cfg op ok replies sid sh se res)
    (hst : op.streams = false) : o.session.reservedBuffer = se.reservedBuffer := by
  subst ho
  unfold execOp
  repeat' split
  all_goals simp_all [Op.streams]

/-! ## Nothing is lost -/

variable {h : SendHistory}

/-- **The books of the session are kept.** -/
structure Conserved (sid : SessionId) (s : State) (h : SendHistory) : Prop where
  laid : s.shared.crashed = false → Laid h (s.session sid).handed (s.formed sid)
    ((s.session sid).reservedBuffer.toList ++ (s.session sid).sendQueue)
  closed : h.closed ≤ h.enqueued.length
  fresh : s.nextSessionId < sid → Laid h [] [] []
  filled : Filled (s.session sid)
  forming : ∀ op : Op, 0 < s.pending op.is sid → Forming (s.session sid) op

theorem conserved_initial (numOfWorkerThread senders : ℕ) (sid : SessionId) :
    Conserved sid (initialState numOfWorkerThread senders) .start := by
  refine ⟨fun _ => ?_, le_rfl, fun _ => laid_start, ⟨?_, ?_⟩, fun op hpos => ?_⟩
  · rw [formed_eq_nil fun op _ => pending_initial _ _]
    exact laid_start
  · simp [initialState, RIOSession.new]
  · simp [initialState, RIOSession.new]
  · rw [pending_initial] at hpos
    exact absurd hpos (lt_irrefl 0)

theorem mem_of_countP_is {l : List Op} (h : 0 < l.countP op.is) : op ∈ l := by
  obtain ⟨op', hop', heq⟩ := List.countP_pos_iff.mp h
  obtain rfl : op' = op := by simpa [Op.is] using heq
  exact hop'

theorem countP_is_eq_zero {l : List Op} (hop : op.copied ≠ []) (h : ∀ op' ∈ l, op'.copied = []) :
    l.countP op.is = 0 := by
  by_contra hne
  exact hop (h op (mem_of_countP_is (Nat.pos_of_ne_zero hne)))

theorem forming_sendPacket {packet : NetBuffer} (hne : packet ≠ []) :
    ∀ op ∈ sendPacket packet, op.copied = [] ∧ Forming se op := by
  simp [sendPacket, sendPost, Op.copied, Forming, hne]

/-- A call pushes no stream, and no packet without bytes. -/
theorem Calls.forming {i : ℕ} {t : Thread} {code : List Op} (hc : Calls i e code)
    (henv : sendsSucceed sid s e = true) (hi : s.threads[i]? = some t) (hsid : t.session = sid) :
    ∀ op ∈ code, op.copied = [] ∧ Forming se op := by
  cases hc with
  | sendPacket packet =>
    exact forming_sendPacket (by simpa [sendsSucceed, hi, hsid] using henv)
  | sendPacketAndDisconnect packet =>
    refine List.forall_mem_cons.mpr ⟨⟨rfl, trivial⟩, forming_sendPacket ?_⟩
    simpa [sendsSucceed, hi, hsid] using henv

/-- **The law is kept where the session's send path is**: its packets, the streams being formed, and
what the operations on it have. -/
theorem Conserved.congr (hcon : Conserved sid s h) (how : Owned sid s) (how' : Owned sid s')
    (hrun : s.shared.crashed = false) (hid : s.nextSessionId ≤ s'.nextSessionId)
    (hh : (s'.session sid).handed = (s.session sid).handed)
    (hr : (s'.session sid).reservedBuffer = (s.session sid).reservedBuffer)
    (hq : (s'.session sid).sendQueue = (s.session sid).sendQueue)
    (hp : ∀ op : Op, op.copied ≠ [] → s'.pending op.is sid = s.pending op.is sid)
    (hf : ∀ op : Op, 0 < s'.pending op.is sid → 0 < s.pending op.is sid ∨
      Forming (s'.session sid) op) : Conserved sid s' h := by
  refine ⟨fun _ => ?_, hcon.closed, fun hlt => hcon.fresh (hid.trans_lt hlt), ⟨?_, ?_⟩,
    fun op hpos => ?_⟩
  · rw [hh, hr, hq, how.formed_congr how' hp]
    exact hcon.laid hrun
  · rw [hq]
    exact hcon.filled.sendQueue
  · rw [hr]
    exact hcon.filled.reservedBuffer
  · rcases hf op hpos with hold | hnew
    · exact (hcon.forming op hold).congr hr
    · exact hnew

/-- A step that executes nothing on the session keeps the law. -/
theorem conserved_other (hcon : Conserved sid s h) (hrc : RefCounted s) (how : Owned sid s)
    (how' : Owned sid s') (henv : sendsSucceed sid s e = true) (hs : Step cfg s e s')
    (hrun : s.shared.crashed = false)
    (hno : ∀ t op rest, s.executing e = some (t, op, rest) → t.session ≠ sid) :
    Conserved sid s' h := by
  have hsame := hcon.congr how how' hrun hs.nextSessionId_le
  cases hs.moves sid with
  | unmoved hse hmem hp =>
    exact hsame (by rw [hse]) (by rw [hse]) (by rw [hse]) (fun op _ => hp _)
      fun op hpos => .inl (by rwa [hp] at hpos)
  | entered threadId hid hnext hlt hse hsh hp =>
    have hempty := hcon.fresh (hid ▸ lt_newSessionId)
    refine ⟨fun _ => ?_, hcon.closed, fun _ => hempty, ⟨?_, ?_⟩, fun op hpos => ?_⟩
    · rw [hse, formed_eq_nil fun op hop => ?_]
      · exact hempty
      · rw [hp, hrc.pending_new hid, Nat.zero_add]
        exact countP_is_eq_zero hop (by simp [makeNewSession, Op.copied])
    · rw [hse]
      simp [initSession, RIOSession.new]
    · rw [hse]
      simp [initSession, RIOSession.new]
    · rw [hp, hrc.pending_new hid, Nat.zero_add] at hpos
      have hmem := mem_of_countP_is hpos
      simp only [makeNewSession, List.mem_cons, List.not_mem_nil, or_false] at hmem
      rcases hmem with rfl | rfl <;> exact trivial
  | @called e s' i t code hi hsid hc hse hsh hp =>
    have hcode : ∀ op ∈ code, op.copied = [] ∧ Forming (s'.session sid) op :=
      hc.forming henv hi hsid
    refine hsame (by rw [hse]) (by rw [hse]) (by rw [hse]) (fun op hop => ?_) fun op hpos => ?_
    · rw [hp, countP_is_eq_zero hop fun op' hop' => (hcode op' hop').1, Nat.add_zero]
    · rw [hp] at hpos
      rcases Nat.eq_zero_or_pos (code.countP op.is) with hzero | hnew
      · exact .inl (by omega)
      · exact .inr (hcode op (mem_of_countP_is hnew)).2
  | completed data hc hse hsh hp =>
    exact hsame (by rw [hse]) (by rw [hse]) (by rw [hse]) (fun op _ => hp _)
      fun op hpos => .inl (by rwa [hp] at hpos)
  | @dequeued s' i k t c hi hcode hrole hc hse hsh hp =>
    refine hsame (by rw [hse]) (by rw [hse]) (by rw [hse]) (fun op hop => ?_) fun op hpos => ?_
    · rw [hp, countP_is_eq_zero hop (by simp [Op.copied]), Nat.add_zero]
    · rw [hp] at hpos
      rcases Nat.eq_zero_or_pos ([Op.getIOCompletedContext c.1 c.2].countP op.is) with hzero | hnew
      · exact .inl (by omega)
      · obtain rfl := List.mem_singleton.mp (mem_of_countP_is hnew)
        exact .inr trivial
  | executed ok replies hi hsid hcode ho hse hsh hp =>
    exact absurd hsid (hno _ _ _ (executing_eq hi hcode))

/-- What an operation writes into the books where it is not the owner's. -/
theorem SendHistory.exec_books (h : SendHistory) (i : ℕ) (ok : Bool) (se : RIOSession)
    (howns : op.owns = false) :
    (h.exec i ok se op).sent = h.sent ∧ (h.exec i ok se op).behind = h.behind := by
  cases op <;> first | exact ⟨rfl, rfl⟩ | cases howns

/-- Only an enqueue adds a packet to the history. -/
theorem SendHistory.exec_enqueued (h : SendHistory) (i : ℕ) (ok : Bool) (se : RIOSession)
    (he : op.enqueues = false) :
    (h.exec i ok se op).enqueued = h.enqueued ∧ (h.exec i ok se op).closed = h.closed := by
  cases op with
  | enqueue packet => cases he
  | streamLoop context count totalSendSize copied =>
    cases count with
    | zero => exact ⟨rfl, rfl⟩
    | succ count =>
      simp only [SendHistory.exec]
      repeat' split
      all_goals exact ⟨rfl, rfl⟩
  | rioSend context copied =>
    simp only [SendHistory.exec]
    split <;> exact ⟨rfl, rfl⟩
  | _ => exact ⟨rfl, rfl⟩

theorem SendHistory.exec_closed {i : ℕ} (hle : h.closed ≤ h.enqueued.length) :
    (h.exec i ok se op).closed ≤ (h.exec i ok se op).enqueued.length := by
  by_cases he : op.enqueues = true
  · cases op with
    | enqueue packet =>
      simp only [SendHistory.exec, List.length_append, List.length_singleton]
      split <;> omega
    | _ => cases he
  · obtain ⟨henqueued, hclosed⟩ := exec_enqueued h i ok se (by simpa using he)
    rw [henqueued, hclosed]
    exact hle

section Execute

variable {i : ℕ} {t : Thread} {rest : List Op}

/-- **The stream after an operation of the owner** is the one in the code it leads to. -/
theorem formed_exec (how : Owned t.session s) (how' : Owned t.session s')
    (hs : Step cfg s (.exec i ok replies) s') (hi : s.threads[i]? = some t)
    (hcode : t.code = op :: rest) (howns : op.owns = true)
    (ho : o = execOp cfg op ok replies t.session s.shared (s.session t.session) t.result) :
    s'.formed t.session = o.code.flatMap Op.copied := by
  have hp := hs.exec_pending hi hcode
  rw [← ho] at hp
  have hone := how.pending_le_one
  have hpo := hp Op.owns
  simp only [List.countP_singleton, howns, if_true] at hpo
  by_cases hex : ∃ op' ∈ o.code, op'.owns = true
  · obtain ⟨op', hop', howns'⟩ := hex
    have hnew : 0 < o.code.countP op'.is := List.countP_pos_iff.mpr ⟨op', hop', by simp [Op.is]⟩
    have hold : [op].countP op'.is ≤ s.pending op'.is t.session := by
      by_cases heq : op = op'
      · subst heq
        simpa [Op.is, Nat.succ_le_iff] using pending_is_pos hi hcode
      · simp [Op.is, heq]
    have hpos : 0 < s'.pending op'.is t.session := by
      have := hp op'.is
      omega
    have hcount : o.code.countP Op.owns ≤ 1 := by
      have := how'.pending_le_one
      have := pending_pos_of_next (p := Op.owns) hi rfl hcode howns
      omega
    rw [how'.formed_eq howns' hpos, flatMap_copied hcount hop' howns']
  · push Not at hex
    have hnil : o.code.flatMap Op.copied = [] :=
      List.flatMap_eq_nil_iff.mpr fun op' hop' => copied_of_owns (by simpa using hex op' hop')
    have hzero : o.code.countP Op.owns = 0 := List.countP_eq_zero.mpr hex
    rw [hnil]
    refine formed_eq_nil fun op' hne => ?_
    by_contra hpos
    obtain ⟨u, hu, husid, x, hx, hxeq⟩ := exists_of_pending_pos (Nat.pos_of_ne_zero hpos)
    obtain rfl : x = op' := by simpa [Op.is] using hxeq
    have hxo : x.owns = true := by
      by_contra hno
      exact hne (copied_of_owns (by simpa using hno))
    have := pending_pos (p := Op.owns) hu hx hxo
    rw [husid] at this
    omega

/-- An operation of anyone else leaves it alone. -/
theorem formed_exec_of_not_owns (how : Owned t.session s) (how' : Owned t.session s')
    (hs : Step cfg s (.exec i ok replies) s') (hi : s.threads[i]? = some t)
    (hcode : t.code = op :: rest) (howns : op.owns = false) :
    s'.formed t.session = s.formed t.session := by
  refine how.formed_congr how' fun op' hne => ?_
  have hp := hs.exec_pending hi hcode op'.is
  rw [countP_is_eq_zero hne (execOp_copied rfl howns), countP_is_eq_zero hne fun x hx => ?_] at hp
  · exact hp
  · rw [List.mem_singleton.mp hx]
    exact copied_of_owns howns

/-- A stream loop of another thread is not disturbed. -/
theorem forming_exec (hcon : Conserved t.session s h) (how : Owned t.session s)
    (hs : Step cfg s (.exec i ok replies) s') (hi : s.threads[i]? = some t)
    (hcode : t.code = op :: rest)
    (hr : ∀ packet, op = .onRecvPacket packet → ∀ packet ∈ replies, packet ≠ [])
    (hpos : 0 < s'.pending op'.is t.session) : Forming (s'.session t.session) op' := by
  have hp := hs.exec_pending hi hcode op'.is
  have hse := hs.exec_session hi hcode
  have hown : Forming (s.session t.session) op :=
    hcon.forming op (pending_is_pos hi hcode)
  rw [hse]
  obtain ⟨o, ho⟩ : ∃ o, o = execOp cfg op ok replies t.session s.shared (s.session t.session)
    t.result := ⟨_, rfl⟩
  rw [← ho] at hp ⊢
  rcases Nat.eq_zero_or_pos (o.code.countP op'.is) with hzero | hnew
  · have hold := hcon.forming op' (by omega)
    by_cases hst : op.streams = true
    · -- the thread in `MakeSendStream` is the only one
      have hst' : op'.streams = false := by
        by_contra hst'
        obtain ⟨rfl, hone⟩ := how.eq_of_streams hst (by simpa using hst')
          (pending_is_pos hi hcode) (by omega)
        simp only [List.countP_singleton, Op.is, decide_true, if_true] at hp hpos hone
        omega
      cases op' <;> first | exact trivial | exact hold | cases hst'
    · exact hold.congr (execOp_reservedBuffer ho (by simpa using hst))
  · exact execOp_forming ho hcon.filled hown hr op' (mem_of_countP_is hnew)

/-- **An operation on the session keeps the law.** -/
theorem conserved_exec (hcon : Conserved t.session s h) (hrc : RefCounted s)
    (how : Owned t.session s) (how' : Owned t.session s')
    (henv : sendsSucceed t.session s (.exec i ok replies) = true)
    (hs : Step cfg s (.exec i ok replies) s') (hrun : s.shared.crashed = false)
    (hi : s.threads[i]? = some t) (hcode : t.code = op :: rest) :
    Conserved t.session s' (h.exec i ok (s.session t.session) op) := by
  have hse := hs.exec_session hi hcode
  have hsh := hs.exec_shared hi hcode
  obtain ⟨o, ho⟩ : ∃ o, o = execOp cfg op ok replies t.session s.shared (s.session t.session)
    t.result := ⟨_, rfl⟩
  rw [← ho] at hse hsh
  rw [sendsSucceed, executing_eq hi hcode] at henv
  have hok : ∀ context copied, op = .rioSend context copied → ok = true := by
    rintro context copied rfl
    simpa using henv
  have hr : ∀ packet, op = .onRecvPacket packet → ∀ packet ∈ replies, packet ≠ [] := by
    rintro packet rfl
    simpa using henv
  have hown : Forming (s.session t.session) op := hcon.forming op (pending_is_pos hi hcode)
  have hlaid := hcon.laid hrun
  refine ⟨fun hcrash => ?_, SendHistory.exec_closed hcon.closed, fun hlt => ?_, ?_,
    fun op' hpos => forming_exec hcon how hs hi hcode hr hpos⟩
  · rw [hse]
    cases howns : op.owns with
    | true =>
      rw [how.formed_eq howns (pending_is_pos hi hcode)] at hlaid
      rw [formed_exec how how' hs hi hcode howns ho]
      exact hlaid.exec ho howns hown hok (by rw [← hsh]; exact hcrash)
    | false =>
      rw [formed_exec_of_not_owns how how' hs hi hcode howns]
      obtain ⟨hsent, hbehind⟩ := h.exec_books i ok (s.session t.session) howns
      by_cases he : op.enqueues = true
      · cases op with
        | enqueue packet =>
          subst ho
          refine hlaid.congr ?_ hsent hbehind
          simp [execOp, SendHistory.exec, hlaid.enqueued]
        | _ => cases he
      · have he : op.enqueues = false := by simpa using he
        obtain ⟨hh, hres, hq⟩ := execOp_keeps ho howns he
        rw [hh, hres, hq]
        refine hlaid.congr ?_ hsent hbehind
        rw [(h.exec_enqueued i ok _ he).1, hlaid.enqueued]
  · have hle := (hrc.drawn t (List.mem_of_getElem? hi)).trans hs.nextSessionId_le
    exact absurd hlt (Nat.not_lt.mpr hle)
  · rw [hse, ho]
    exact hcon.filled.exec hown

end Execute

theorem conserved_step (hcon : Conserved sid s h) (hrc : RefCounted s) (how : Owned sid s)
    (how' : Owned sid s') (henv : sendsSucceed sid s e = true) (hstep : step cfg s e = some s') :
    Conserved sid s' (h.record sid s e) := by
  have hs := step_cases hstep
  have hrun := crashed_of_step hstep
  by_cases hex : ∃ t op rest, s.executing e = some (t, op, rest) ∧ t.session = sid
  · obtain ⟨t, op, rest, hx, rfl⟩ := hex
    obtain ⟨i, ok, replies, rfl, hi, hcode⟩ := executing_eq_some hx
    have hrec : h.record t.session s (.exec i ok replies) =
        h.exec i ok (s.session t.session) op := by
      simp [SendHistory.record, hx]
    rw [hrec]
    exact conserved_exec hcon hrc how how' henv hs hrun hi hcode
  · have hno : ∀ t op rest, s.executing e = some (t, op, rest) → t.session ≠ sid :=
      fun t op rest hx hsid => hex ⟨t, op, rest, hx, hsid⟩
    have hrec : h.record sid s e = h := by
      unfold SendHistory.record
      split
      · rename_i i ok replies t op rest hx
        rw [if_neg (hno t op rest hx)]
      · rfl
    rw [hrec]
    exact conserved_other hcon hrc how how' henv hs hrun hno

/-! ## The two conditions agree -/

theorem sendsFirst_iff_findsSent (hcon : Conserved sid s h) (hrun : s.shared.crashed = false) :
    sendsFirst sid (s, h) e = true ↔ findsSent sid (s, h) e = true := by
  have hiff := (hcon.laid hrun).prefix_iff hcon.closed
  rw [← List.append_assoc] at hiff
  unfold sendsFirst findsSent
  split
  · rw [decide_eq_true_iff, decide_eq_true_iff, hiff]
    rfl
  · rfl

/-- **`SendPacketAndDisconnect` sends first exactly where `SendCompleted` finds it sent.** In every
run in which `RIOSend` succeeds, the session is disconnected only after the closing packets and all
before them were handed over if and only if, whenever `SendCompleted` finds the flag set, no call is
between setting it and enqueueing, only packets enqueued later are waiting, and none up to the
closing ones was put behind another in its stream. -/
theorem sendsFirst_iff {es : List Event} {x₀ x : State × SendHistory}
    (h₀ : (closingSystem cfg sid).Init x₀)
    (henv : (closingSystem cfg sid).Meets (fun x e => sendsSucceed sid x.1 e = true) x₀ es)
    (hrun : (closingSystem cfg sid).run x₀ es = some x) :
    (closingSystem cfg sid).Meets (fun x e => sendsFirst sid x e = true) x₀ es ↔
      (closingSystem cfg sid).Meets (fun x e => findsSent sid x e = true) x₀ es := by
  refine System.Meets.congr
    (P := fun x => (system cfg).Reachable x.1 ∧ Conserved sid x.1 x.2)
    (fun x e x' hP henv hstep => ?_) henv hrun ?_
  · obtain ⟨hreach, hcon⟩ := hP
    obtain ⟨hstep, hh⟩ := System.recorded_step_eq_some.mp hstep
    have hreach' : (system cfg).Reachable x'.1 := .step hreach trivial hstep
    refine ⟨⟨hreach', ?_⟩, sendsFirst_iff_findsSent hcon (crashed_of_step hstep)⟩
    rw [hh]
    exact conserved_step hcon (refCounted_of_reachableUnder hreach) (owned_of_reachable hreach sid)
      (owned_of_reachable hreach' sid) henv hstep
  · obtain ⟨⟨numOfWorkerThread, senders, hs⟩, hh⟩ := h₀
    rw [hs, hh]
    exact ⟨.init ⟨numOfWorkerThread, senders, rfl⟩, conserved_initial _ _ _⟩

/-- One packet is sent and the session closed: the flag is set on an idle send path, and
`SendCompleted` finds the packet handed over. -/
theorem sendsFirst_oneClosing : ∃ es x,
    (closingSystem checksumConfig 2).run (initialState 1 1, .start) es = some x ∧
      x.2.enqueued = [[7]] ∧ x.2.sent = [([7], true)] ∧
      ((closingSystem checksumConfig 2).Meets (fun x e => sendsFirst 2 x e = true)
          (initialState 1 1, .start) es ↔
        (closingSystem checksumConfig 2).Meets (fun x e => findsSent 2 x e = true)
          (initialState 1 1, .start) es) := by
  obtain ⟨x, henv, hrun, hx⟩ := System.exists_run (closingSystem checksumConfig 2)
    (.accept 0 0 [] true :: execs 0 7 ++ [.getSession 2 2, .sendPacketAndDisconnect 2 [7]] ++
      execs 2 10 ++ [.complete 2 1 [7], .dequeue 1 2 0] ++ execs 1 5)
    (s := (initialState 1 1, .start)) (c := fun x e => sendsSucceed 2 x.1 e)
    (f := fun x => x.2.enqueued = [[7]] ∧ x.2.sent = [([7], true)]) (by decide +kernel)
  have hx := of_decide_eq_true hx
  exact ⟨_, x, hrun, hx.1, hx.2, sendsFirst_iff ⟨⟨1, 1, rfl⟩, rfl⟩ henv hrun⟩

/-- A thread closes the session while the send of a first packet is with the kernel, whose
completion the worker then takes. -/
def closeDuringSend : List Event :=
  .accept 0 0 [] true :: execs 0 7 ++ [.getSession 2 2, .sendPacket 2 [7]] ++ execs 2 9 ++
    [.sendPacketAndDisconnect 2 [8]] ++ execs 2 3 ++ [.complete 2 1 [7], .dequeue 1 2 0] ++
    execs 1 2

/-- **A packet behind an earlier send is not sent.** `SendCompleted` finds the flag that was set
after the first packet, and disconnects with the second in the queue. -/
theorem not_sendsFirst : ¬ ∀ es x,
    (closingSystem checksumConfig 2).Meets (fun x e => sendsSucceed 2 x.1 e = true)
      (initialState 1 1, .start) es →
    (closingSystem checksumConfig 2).run (initialState 1 1, .start) es = some x →
    (closingSystem checksumConfig 2).Meets (fun x e => sendsFirst 2 x e = true)
      (initialState 1 1, .start) es := by
  intro hall
  obtain ⟨x, henv, hrun, -⟩ := System.exists_run (closingSystem checksumConfig 2)
    (closeDuringSend ++ [.exec 1 true []]) (s := (initialState 1 1, .start))
    (c := fun x e => sendsSucceed 2 x.1 e) (f := fun _ => true) (by decide +kernel)
  obtain ⟨y, hy, -⟩ := System.run_append_eq_some.mp hrun
  have hfirst := ((hall _ x henv hrun).of_append hy).1
  have hbad : ((closingSystem checksumConfig 2).run (initialState 1 1, .start) closeDuringSend).all
      (fun y => !sendsFirst 2 y (.exec 1 true [])) = true := by decide +kernel
  rw [hy, Option.all_some, hfirst] at hbad
  cases hbad

end RIOServer

end DdingGameServer
