import DdingGameServer.MultiLanClient.Staff
/-!
# MultiLanClient — the token of the send path

`IOMode` is a token. `SendPost` takes it with a compare-exchange, it goes with the batch to the
kernel and comes back with the completion, whose handler gives it back. In every reachable state it
has at most one holder; a `WSASend` that fails is the one step that loses it. `Carried` is the rule
that comes of this: what the holder is entitled to goes from holder to holder, and nobody else can
touch it.
-/

namespace DdingGameServer

namespace MultiLanClient

variable {cfg : Config} {s s' : State} {e : Event} {sid i k : ℕ} {op : Op} {ok : Bool}
  {se : Session} {ids : List ℕ} {o : Outcome} {c : Caller} {r : PostRetval}

/-! ## Who holds it -/

/-- 1 for an operation that holds `SENDING` and will pass it on or give it back. -/
def Op.holds : Op → ℕ
  | .getRestSize _ | .resetMode _ | .dequeue _ _ _ | .setBufferCount _ _ | .countSend _ _
  | .wsaSend _ _ | .sendCompleted | .freeSent _ _ | .subtractCount _ | .resetSending => 1
  | _ => 0

/-- 1 for a send at the kernel. -/
def Request.sends : Request → ℕ
  | .recv => 0
  | .send _ => 1

def Completion.sends : Completion → ℕ
  | .recv _ => 0
  | .send _ => 1

/-- The sends at the kernel, and those it has finished. -/
def Session.sends (se : Session) : ℕ :=
  tally Request.sends se.posted + tally Completion.sends se.completed

/-- 1 while the token is out. -/
def IoMode.taken : IoMode → ℕ
  | .nonSending => 0
  | .sending => 1

/-- How many holders the token of the session `sid` has. -/
def State.tokens (sid : ℕ) (s : State) : ℕ := (s.session sid).sends + tally Op.holds (s.ops sid)

/-- The operation is a `WSASend` that fails. -/
def Op.failsSend (ok : Bool) (se : Session) : Op → Bool
  | .wsaSend _ _ => !(ok && se.connected)
  | _ => false

/-- A `WSASend` on the session `sid` fails. -/
def sendFails (sid : ℕ) (s : State) (e : Event) : Bool :=
  match s.running sid e with
  | some (op, ok) => op.failsSend ok (s.session sid)
  | none => false

/-! ## One operation -/

@[simp] theorem holds_resume : tally Op.holds (c.resume r).toList = 0 := by
  cases c <;> cases r <;> rfl

theorem holds_of_mem_resume (h : op ∈ c.resume r) : op.holds = 0 := by
  have hle : op.holds ≤ tally Op.holds (c.resume r).toList :=
    le_tally_of_mem (Option.mem_toList.mpr h)
  rw [holds_resume] at hle
  omega

theorem holds_decrement (se : Session) (ids : List ℕ) (c : Caller) (next : Option Op)
    (h : tally Op.holds next.toList = 0) :
    tally Op.holds (decrement se ids c next).next.toList = 0 := by
  rcases decrement_next se ids c next with hnext | hnext
  · rw [hnext]; rfl
  · rw [hnext]; exact h

theorem sends_posted (se : Session) (q : Request) :
    ({ se with posted := se.posted ++ [q] } : Session).sends = se.sends + q.sends := by
  simp only [Session.sends, tally_append, tally_cons, tally_nil]
  omega

theorem IoMode.taken_le_one (m : IoMode) : m.taken ≤ 1 := by
  cases m <;> simp [IoMode.taken]

/-- **Who holds the token is alone with it**: nothing is at the kernel, and no other operation holds
it. -/
theorem alone_of_holds (htok : s.tokens sid ≤ (s.session sid).ioMode.taken)
    (hop : op ∈ s.ops sid) (hpos : 0 < op.holds) :
    (s.session sid).sends = 0 ∧ tally Op.holds (s.ops sid) ≤ tally Op.holds [op] := by
  have hle : op.holds ≤ tally Op.holds (s.ops sid) := le_tally_of_mem hop
  have hone := (s.session sid).ioMode.taken_le_one
  rw [State.tokens] at htok
  simp only [tally_cons, tally_nil]
  omega

/-- Without a send outstanding no batch is at the kernel. -/
theorem not_mem_of_sends {se : Session} (h : se.sends = 0) (b : List Buffer) :
    .send b ∉ se.posted ∧ .send b ∉ se.completed := by
  rw [Session.sends, Nat.add_eq_zero_iff, tally_eq_zero, tally_eq_zero] at h
  exact ⟨fun hb => absurd (h.1 _ hb) Nat.one_ne_zero,
    fun hb => absurd (h.2 _ hb) Nat.one_ne_zero⟩

/-- **An operation passes the token on**, takes it, gives it back, or loses it to a `WSASend` that
fails. -/
theorem Exec.tokens (h : Exec cfg ok sid se ids op o)
    (hmode : 0 < op.holds → se.ioMode = .sending) :
    o.session.sends + tally Op.holds o.next.toList + (op.failsSend ok se).toNat + se.ioMode.taken =
      se.sends + op.holds + o.session.ioMode.taken := by
  cases h with
  | casFailed c hsending => simp [Op.holds, Op.failsSend]
  | casTaken c hnon => simp [Op.holds, Op.failsSend, Session.sends, hnon, IoMode.taken]
  | modeReset c | sendReset =>
    have := hmode (by simp [Op.holds])
    simp [Op.holds, Op.failsSend, Session.sends, this, IoMode.taken]
  | sent c wsaSendBuf hok hconn =>
    have hsends := sends_posted se (.send wsaSendBuf)
    simp only [Op.holds, Op.failsSend, hok, hconn, Request.sends, Option.toList_some, tally_cons,
      tally_nil, Bool.and_self, Bool.not_true, Bool.toNat_false] at hsends ⊢
    omega
  | recvPosted c hok hconn =>
    have hsends := sends_posted se .recv
    simp only [Op.holds, Op.failsSend, Request.sends, holds_resume, Bool.toNat_false] at hsends ⊢
    omega
  | sendFailed c wsaSendBuf hfail =>
    have hnext := holds_decrement se ids c (c.resume .err) holds_resume
    have hf : (Op.wsaSend c wsaSendBuf).failsSend ok se = true := by
      simp only [Op.failsSend]
      cases ok <;> cases hconn : se.connected <;> simp_all
    rw [hnext, hf]
    simp only [decrement, Session.sends, Op.holds, Bool.toNat_true]
  | ringFull c | recvFailed c =>
    have hnext := holds_decrement se ids c (c.resume .err) holds_resume
    rw [hnext]
    simp [decrement, Session.sends, Op.holds, Op.failsSend]
  | workerEnded =>
    have hnext := holds_decrement se ids .worker none rfl
    rw [hnext]
    simp [decrement, Session.sends, Op.holds, Op.failsSend]
  | socketClosed c =>
    dsimp only
    split <;> simp [Op.holds, Op.failsSend, Session.sends]
  | _ => simp [Op.holds, Op.failsSend, Session.sends]

/-- An operation that does not hold the token leaves the send data alone. -/
theorem Exec.frame (h : Exec cfg ok sid se ids op o) (hop : op.holds = 0) :
    o.session.lBufferCount = se.lBufferCount ∧
      o.session.serializeBufStore = se.serializeBufStore ∧
      (∀ b, .send b ∈ o.session.posted ↔ .send b ∈ se.posted) ∧
      (o.session.ioMode = .nonSending → se.ioMode = .nonSending) := by
  cases h with
  | _ => simp_all [Op.holds, decrement]

/-- Completions are the kernel's. -/
theorem Exec.completed (h : Exec cfg ok sid se ids op o) : o.session.completed = se.completed := by
  cases h with
  | _ => rfl

/-- Such an operation leads to the token with a compare-exchange only. -/
theorem Exec.next_of_holds (h : Exec cfg ok sid se ids op o) (hop : op.holds = 0) {op' : Op}
    (hnext : o.next = some op') (hop' : 0 < op'.holds) :
    se.ioMode = .nonSending ∧ ∃ c, op' = .getRestSize c := by
  have hresume : ∀ {c : Caller} {r : PostRetval}, c.resume r ≠ some op' := by
    intro c r hr
    have := holds_of_mem_resume hr
    omega
  have hdec : ∀ {c : Caller} {next : Option Op}, next ≠ some op' →
      (decrement se ids c next).next ≠ some op' := by
    intro c next hne heq
    rcases decrement_next se ids c next with h | h
    · rw [h] at heq
      cases heq
      exact absurd hop' (lt_irrefl 0)
    · exact hne (h.symm.trans heq)
  cases h with
  | casTaken c hnon =>
    cases hnext
    exact ⟨hnon, c, rfl⟩
  | casFailed c | recheckEmpty c | recvPosted c | pushed c => exact absurd hnext hresume
  | ringFull c | recvFailed c => exact absurd hnext (hdec hresume)
  | workerEnded => exact absurd hnext (hdec (by simp))
  | socketClosed c =>
    dsimp only at hnext
    split at hnext
    · cases hnext
      exact absurd hop' (lt_irrefl 0)
    · exact absurd hnext hresume
  | popped => cases hnext
  | sendFailed c | restEmpty c | restFound c | modeReset c | dequeued c | dequeuedNothing c
  | dequeueDone c | bufferCountSet c | sendCounted c | sent c | sendBegun | sentFreed | sentDone
  | countSubtracted | sendReset => exact absurd hop (by simp [Op.holds])
  | _ =>
    cases hnext
    exact absurd hop' (lt_irrefl 0)

/-! ## One step -/

theorem sends_finish {k : ℕ} {q : Request} {data : List UInt8} (h : se.posted[k]? = some q) :
    (se.finish k (q.finish data)).sends = se.sends := by
  have hposted := (replaces_eraseIdx h).tally_eq Request.sends
  have hq : (q.finish data).sends = q.sends := by cases q <;> rfl
  simp only [Session.finish, Session.sends, tally_append, tally_cons, tally_nil, hq] at hposted ⊢
  omega

theorem sends_take {k : ℕ} {c : Completion} (h : se.completed[k]? = some c) :
    (se.take k).sends + c.sends = se.sends := by
  have hcompleted := (replaces_eraseIdx h).tally_eq Completion.sends
  simp only [Session.take, Session.sends, tally_cons, tally_nil] at hcompleted ⊢
  omega

/-- A worker takes the token over with the completion. -/
theorem Completion.holds_op (c : Completion) : c.op.holds = c.sends := by
  cases c with
  | recv data =>
    simp only [Completion.op]
    split <;> rfl
  | send wsaSendBuf => rfl

/-- A holder is entitled to the token. -/
theorem mode_of_holds (h : s.tokens sid ≤ (s.session sid).ioMode.taken) (hop : op ∈ s.ops sid)
    (hholds : 0 < op.holds) : (s.session sid).ioMode = .sending := by
  have hle : op.holds ≤ tally Op.holds (s.ops sid) := le_tally_of_mem hop
  rw [State.tokens] at h
  cases hm : (s.session sid).ioMode with
  | sending => rfl
  | nonSending =>
    rw [hm, IoMode.taken] at h
    omega

/-- A `WSASend` that fails does not crash. -/
theorem sendFails_of_outcome (hout : s.outcome cfg sid e = none) : sendFails sid s e = false := by
  simp only [sendFails]
  split
  · rename_i op ok hrun
    cases op with
    | wsaSend c b =>
      simp only [State.outcome, hrun, Option.bind_some, Option.map_eq_none_iff, execOp] at hout
      split at hout <;> cases hout
    | _ => rfl
  · rfl

/-- **What a step does to the token.** -/
theorem Step.tokens (h : Step cfg s e s') (hst : Staffed cfg s)
    (htok : s.tokens sid ≤ (s.session sid).ioMode.taken) :
    s'.tokens sid + (sendFails sid s e).toNat + (s.session sid).ioMode.taken =
      s.tokens sid + (s'.session sid).ioMode.taken := by
  cases h.alters sid with
  | kept hse hops hcrash =>
    have hfails := sendFails_of_outcome (outcome_of_crash hcrash)
    simp only [State.tokens, hse, hops, hfails, Bool.toNat_false]
    omega
  | started hid hse hops =>
    obtain ⟨hnew, -⟩ := hst.fresh sid (hid ▸ le_rfl)
    have htally := hops.tally_eq Op.holds
    simp only [tally_nil, tally_cons, Op.holds] at htally
    simp only [State.tokens, hse, sendFails, State.running, Bool.toNat_false, Session.start,
      Session.sends, hnew, Session.new] at htok ⊢
    omega
  | sent _ _ _ _ _ hse _ hops =>
    have htally := hops.tally_eq Op.holds
    simp only [tally_nil, tally_cons, Op.holds] at htally
    simp only [State.tokens, hse, sendFails, State.running, Bool.toNat_false]
    omega
  | finished hq hse hops =>
    have hmode : (s'.session sid).ioMode = (s.session sid).ioMode := by rw [hse]; rfl
    have hsends : (s'.session sid).sends = (s.session sid).sends := by rw [hse, sends_finish hq]
    simp only [State.tokens, hmode, hops, hsends, sendFails, State.running, Bool.toNat_false]
    omega
  | taken _ _ hc hse hops =>
    have hmode : (s'.session sid).ioMode = (s.session sid).ioMode := by rw [hse]; rfl
    have htally := hops.tally_eq Op.holds
    have hsends := sends_take hc
    rw [← hse] at hsends
    simp only [tally_nil, tally_cons, Completion.holds_op] at htally
    simp only [State.tokens, hmode, sendFails, State.running, Bool.toNat_false]
    omega
  | reconnecting _ _ _ _ hse hops =>
    have htally := hops.tally_eq Op.holds
    simp only [tally_nil, tally_cons, Op.holds] at htally
    simp only [State.tokens, hse, sendFails, State.running, Bool.toNat_false]
    omega
  | @executed s' i t op o ok hi hsid hop ho hse hids hops =>
    have htally := hops.tally_eq Op.holds
    have hexec := (execOp_cases ho).tokens
      fun hpos => mode_of_holds htok (hops.mem_old List.mem_cons_self) hpos
    have hrun : s.running sid (.exec i ok) = some (op, ok) := running_eq hi hsid hop
    simp only [tally_nil, tally_cons] at htally
    simp only [State.tokens, hse, sendFails, hrun] at htok ⊢
    omega

/-- **The token has at most one holder**, in every reachable state. -/
theorem tokens_le_taken (h : (system cfg).Reachable s) (sid : ℕ) :
    s.tokens sid ≤ (s.session sid).ioMode.taken := by
  refine reachable_of_step (C := fun _ _ => True)
    (P := fun s => s.tokens sid ≤ (s.session sid).ioMode.taken) (fun senders => ?_)
    (fun s e s' hr htok _ hs => ?_) h
  · have hops := ((staffed_initial cfg senders).fresh sid (Nat.zero_le _)).2
    rw [State.tokens, hops]
    exact Nat.zero_le _
  · have := hs.tokens (staffed_of_reachable hr) htok
    omega

/-- While no `WSASend` fails the token is out exactly when somebody holds it. -/
theorem Step.tokens_eq (h : Step cfg s e s') (hst : Staffed cfg s)
    (hfails : sendFails sid s e = false)
    (htok : s.tokens sid = (s.session sid).ioMode.taken) :
    s'.tokens sid = (s'.session sid).ioMode.taken := by
  have := h.tokens hst htok.le
  rw [hfails, Bool.toNat_false] at this
  omega

/-! ## What the holder is entitled to -/

/-- **What goes with the token**: `F op` while the operation `op` holds it, `K b` while the batch
`b` is at the kernel, and `I` while nobody does. -/
structure Carried (sid : ℕ) (F : Op → Prop) (K : List Buffer → Prop) (I : Prop) (s : State) :
    Prop where
  ops : ∀ op ∈ s.ops sid, 0 < op.holds → F op
  posted : ∀ b, .send b ∈ (s.session sid).posted → K b
  completed : ∀ b, .send b ∈ (s.session sid).completed → K b
  idle : (s.session sid).ioMode = .nonSending → I

/-- The step is an operation of the holder on the session `sid`. -/
def State.holderRuns (cfg : Config) (sid : ℕ) (s : State) (e : Event) (op : Op) (ok : Bool)
    (o : Outcome) : Prop :=
  s.running sid e = some (op, ok) ∧ 0 < op.holds ∧
    execOp cfg op ok sid (s.session sid) s.reconnectIdList = some o

variable {F F' : Op → Prop} {K K' : List Buffer → Prop} {I I' : Prop}

/-- **The rule for what goes with the token.** Steps of others have to leave it alone; the compare
exchange hands over what nobody held, a completion what the kernel held; and the holder's own step
says what its next operation is entitled to, or the kernel, or nobody. -/
theorem Carried.step (h : Carried sid F K I s) (hs : Step cfg s e s') (hst : Staffed cfg s)
    (htok : s.tokens sid ≤ (s.session sid).ioMode.taken)
    (hframe : (∀ op ok o, ¬ s.holderRuns cfg sid e op ok o) →
      (∀ op ∈ s.ops sid, 0 < op.holds → F op → F' op) ∧
      (∀ b, .send b ∈ (s.session sid).posted ∨ .send b ∈ (s.session sid).completed →
        K b → K' b) ∧ (I → I'))
    (hcas : I' → ∀ c, F' (.getRestSize c)) (htaken : ∀ b, K' b → F' .sendCompleted)
    (hexec : ∀ op ok o, s.holderRuns cfg sid e op ok o → F op →
      (∀ op' ∈ o.next, 0 < op'.holds → F' op') ∧
      (∀ b, .send b ∈ o.session.posted → .send b ∉ (s.session sid).posted → K' b) ∧
      (o.session.ioMode = .nonSending → I')) :
    Carried sid F' K' I' s' := by
  have hnone : s.running sid e = none → ∀ op ok o, ¬ s.holderRuns cfg sid e op ok o := by
    intro hrun op ok o hh
    rw [hh.1] at hrun
    cases hrun
  have hposted : (∀ b, .send b ∈ (s.session sid).posted ∨ .send b ∈ (s.session sid).completed →
      K b → K' b) → ∀ {b}, .send b ∈ (s.session sid).posted → K' b :=
    fun hK b hb => hK b (.inl hb) (h.posted b hb)
  have hcompleted : (∀ b, .send b ∈ (s.session sid).posted ∨
      .send b ∈ (s.session sid).completed → K b → K' b) →
      ∀ {b}, .send b ∈ (s.session sid).completed → K' b :=
    fun hK b hb => hK b (.inr hb) (h.completed b hb)
  -- a thread that comes to the session brings no token with it
  have hadd : ∀ {op' : Op}, Replaces [] [op'] (s.ops sid) (s'.ops sid) → op'.holds = 0 →
      (∀ op ∈ s.ops sid, 0 < op.holds → F op → F' op) →
      ∀ op ∈ s'.ops sid, 0 < op.holds → F' op := by
    intro op' hops hop' hF op hop hpos
    rcases hops.mem Op.holds hop with hnew | ⟨hold, -⟩
    · obtain rfl := List.mem_singleton.mp hnew
      omega
    · exact hF op hold hpos (h.ops op hold hpos)
  cases hs.alters sid with
  | kept hse hops hcrash =>
    obtain ⟨hF, hK, hI⟩ := hframe fun op ok o hh => by
      obtain ⟨hrun, -, ho⟩ := hh
      exact nomatch (hcrash op ok hrun).symm.trans ho
    exact ⟨fun op hop hpos => hF op (hops ▸ hop) hpos (h.ops op (hops ▸ hop) hpos),
      fun b hb => hposted hK (hse ▸ hb), fun b hb => hcompleted hK (hse ▸ hb),
      fun hm => hI (h.idle (hse ▸ hm))⟩
  | started hid hse hops =>
    obtain ⟨hF, hK, hI⟩ := hframe (hnone rfl)
    obtain ⟨hnew, -⟩ := hst.fresh sid (hid ▸ le_rfl)
    refine ⟨hadd hops rfl hF, fun b hb => ?_, fun b hb => ?_, fun _ => hI (h.idle ?_)⟩
    · simp [hse, Session.start, hnew, Session.new] at hb
    · simp [hse, Session.start, hnew, Session.new] at hb
    · rw [hnew]; rfl
  | sent _ _ _ _ _ hse _ hops =>
    obtain ⟨hF, hK, hI⟩ := hframe (hnone rfl)
    exact ⟨hadd hops rfl hF, fun b hb => hposted hK (hse ▸ hb),
      fun b hb => hcompleted hK (hse ▸ hb), fun hm => hI (h.idle (hse ▸ hm))⟩
  | @finished s' k q data hq hse hops =>
    obtain ⟨hF, hK, hI⟩ := hframe (hnone rfl)
    refine ⟨fun op hop hpos => hF op (hops ▸ hop) hpos (h.ops op (hops ▸ hop) hpos),
      fun b hb => hposted hK ?_, fun b hb => ?_, fun hm => hI (h.idle (by rwa [hse] at hm))⟩
    · rw [hse] at hb
      exact List.mem_of_mem_eraseIdx hb
    · rw [hse] at hb
      rcases List.mem_append.mp hb with hb | hb
      · exact hcompleted hK hb
      · cases q with
        | recv => simp [Request.finish] at hb
        | send b' =>
          obtain rfl : b = b' := by simpa [Request.finish] using hb
          exact hposted hK (List.mem_of_getElem? hq)
  | @taken s' i k t c hi hrole hc hse hops =>
    obtain ⟨hF, hK, hI⟩ := hframe (hnone rfl)
    refine ⟨fun op hop hpos => ?_, fun b hb => hposted hK (by rwa [hse] at hb),
      fun b hb => hcompleted hK ?_, fun hm => hI (h.idle (by rwa [hse] at hm))⟩
    · rcases hops.mem Op.holds hop with hnew | ⟨hold, -⟩
      · obtain rfl := List.mem_singleton.mp hnew
        cases c with
        | recv data => exact absurd hpos (by rw [Completion.holds_op]; exact lt_irrefl 0)
        | send b => exact htaken b (hcompleted hK (List.mem_of_getElem? hc))
      · exact hF op hold hpos (h.ops op hold hpos)
    · rw [hse] at hb
      exact List.mem_of_mem_eraseIdx hb
  | reconnecting _ _ _ _ hse hops =>
    obtain ⟨hF, hK, hI⟩ := hframe (hnone rfl)
    exact ⟨hadd hops rfl hF, fun b hb => hposted hK (hse ▸ hb),
      fun b hb => hcompleted hK (hse ▸ hb), fun hm => hI (h.idle (hse ▸ hm))⟩
  | @executed s' i t op o ok hi hsid hop ho hse hids hops =>
    have hx := execOp_cases ho
    have hrun : s.running sid (.exec i ok) = some (op, ok) := running_eq hi hsid hop
    have hmem : op ∈ s.ops sid := hops.mem_old List.mem_cons_self
    rcases Nat.eq_zero_or_pos op.holds with hzero | hpos
    · obtain ⟨hF, hK, hI⟩ := hframe fun op' ok' o' hh => by
        have := hh.1.symm.trans hrun
        obtain ⟨rfl, rfl⟩ := Prod.mk.inj (Option.some.inj this)
        have := hh.2.1
        omega
      obtain ⟨-, -, hsame, hmode⟩ := hx.frame hzero
      refine ⟨fun op' hop' hpos' => ?_, fun b hb => hposted hK ?_,
        fun b hb => hcompleted hK ?_, fun hm => hI (h.idle (hmode (hse ▸ hm)))⟩
      · rcases hops.mem Op.holds hop' with hnew | ⟨hold, -⟩
        · obtain ⟨hnon, c, rfl⟩ := hx.next_of_holds hzero (Option.mem_toList.mp hnew) hpos'
          exact hcas (hI (h.idle hnon)) c
        · exact hF op' hold hpos' (h.ops op' hold hpos')
      · exact (hsame b).mp (hse ▸ hb)
      · exact hx.completed ▸ hse ▸ hb
    · obtain ⟨hsends, halone⟩ := alone_of_holds htok hmem hpos
      obtain ⟨hnext, hsent, hfree⟩ := hexec op ok o ⟨hrun, hpos, ho⟩ (h.ops op hmem hpos)
      refine ⟨fun op' hop' hpos' => ?_, fun b hb => ?_, fun b hb => ?_, fun hm => hfree (hse ▸ hm)⟩
      · rcases hops.mem Op.holds hop' with hnew | ⟨-, hadd⟩
        · exact hnext op' (Option.mem_toList.mp hnew) hpos'
        · omega
      · exact hsent b (hse ▸ hb) (not_mem_of_sends hsends b).1
      · rw [hse, hx.completed] at hb
        exact absurd hb (not_mem_of_sends hsends b).2

/-- Steps of others leave the count and the store alone. -/
theorem Step.store_of_other (hs : Step cfg s e s') (hst : Staffed cfg s)
    (hother : ∀ op ok o, ¬ s.holderRuns cfg sid e op ok o) :
    (s'.session sid).lBufferCount = (s.session sid).lBufferCount ∧
      (s'.session sid).serializeBufStore = (s.session sid).serializeBufStore := by
  cases hs.alters sid with
  | kept hse | sent _ _ _ _ _ hse | reconnecting _ _ _ _ hse =>
    rw [hse]
    exact ⟨rfl, rfl⟩
  | started hid hse =>
    obtain ⟨hnew, -⟩ := hst.fresh sid (hid ▸ le_rfl)
    rw [hse, hnew]
    exact ⟨rfl, rfl⟩
  | finished _ hse | taken _ _ _ hse =>
    rw [hse]
    exact ⟨rfl, rfl⟩
  | executed hi hsid hop ho hse =>
    have hzero := Nat.eq_zero_of_not_pos fun hpos =>
      hother _ _ _ ⟨running_eq hi hsid hop, hpos, ho⟩
    obtain ⟨hcount, hstore, -, -⟩ := (execOp_cases ho).frame hzero
    rw [hse]
    exact ⟨hcount, hstore⟩

/-! ## The count of the store -/

/-- What `lBufferCount` is while the operation holds the token. -/
def CountFact (lBufferCount : ℤ) : Op → Prop
  | .countSend _ b | .wsaSend _ b => lBufferCount = b.length
  | .freeSent n _ | .subtractCount n => lBufferCount = n
  | .sendCompleted => True
  | _ => lBufferCount = 0

/-- The count is 0 unless a batch is on its way. -/
def Counted (sid : ℕ) (s : State) : Prop :=
  Carried sid (CountFact (s.session sid).lBufferCount) (fun _ => True)
    ((s.session sid).lBufferCount = 0) s

theorem Exec.countFact (h : Exec cfg ok sid se ids op o) (hpos : 0 < op.holds)
    (hF : CountFact se.lBufferCount op) :
    (∀ op' ∈ o.next, 0 < op'.holds → CountFact o.session.lBufferCount op') ∧
      (o.session.ioMode = .nonSending → se.ioMode = .sending → o.session.lBufferCount = 0) := by
  cases h with
  | restEmpty | restFound | dequeued | dequeuedNothing | dequeueDone | sendCounted | sentFreed
  | sentDone =>
    refine ⟨?_, fun hnon hsend => nomatch hnon.symm.trans hsend⟩
    rintro _ ⟨⟩ -
    exact hF
  | bufferCountSet | sendBegun =>
    refine ⟨?_, fun hnon hsend => nomatch hnon.symm.trans hsend⟩
    rintro _ ⟨⟩ -
    exact rfl
  | sent =>
    refine ⟨?_, fun hnon hsend => nomatch hnon.symm.trans hsend⟩
    rintro _ ⟨⟩ hpos'
    exact absurd hpos' (lt_irrefl 0)
  | sendFailed c =>
    refine ⟨fun op' hop' hpos' => ?_, fun hnon hsend => nomatch hnon.symm.trans hsend⟩
    have hnext := holds_decrement se ids c (c.resume .err) holds_resume
    exact absurd (tally_eq_zero.mp hnext op' (Option.mem_toList.mpr hop')) hpos'.ne'
  | countSubtracted n =>
    refine ⟨?_, fun hnon hsend => nomatch hnon.symm.trans hsend⟩
    rintro _ ⟨⟩ -
    change se.lBufferCount - n = 0
    rw [show se.lBufferCount = n from hF]
    omega
  | modeReset | sendReset =>
    refine ⟨?_, fun _ _ => hF⟩
    rintro _ ⟨⟩ hpos'
    exact absurd hpos' (lt_irrefl 0)
  | _ => exact absurd hpos (lt_irrefl 0)

theorem counted_of_reachable (h : (system cfg).Reachable s) (sid : ℕ) : Counted sid s := by
  refine reachable_of_step (C := fun _ _ => True) (P := Counted sid) (fun senders => ?_)
    (fun s e s' hr hc _ hs => ?_) h
  · obtain ⟨hse, hops⟩ := (staffed_initial cfg senders).fresh sid (Nat.zero_le _)
    refine ⟨fun op hop => ?_, fun _ _ => trivial, fun _ _ => trivial, fun _ => by rw [hse]; rfl⟩
    rw [hops] at hop
    cases hop
  · have hst := staffed_of_reachable hr
    have htok := tokens_le_taken hr sid
    refine Carried.step hc hs hst htok (fun hother => ?_) (fun hI _ => hI) (fun _ _ => trivial)
      (fun op ok o hh hF => ?_)
    · rw [(hs.store_of_other hst hother).1]
      exact ⟨fun _ _ _ => id, fun _ _ => id, id⟩
    · obtain ⟨hrun, hpos, ho⟩ := hh
      obtain ⟨hse, hops⟩ := hs.session_of_outcome hrun ho
      have hmem : op ∈ s.ops sid := hops.mem_old List.mem_cons_self
      obtain ⟨hnext, hidle⟩ := (execOp_cases ho).countFact hpos hF
      rw [hse]
      exact ⟨hnext, fun _ _ _ => trivial, fun hnon => hidle hnon (mode_of_holds htok hmem hpos)⟩

/-- **While the token is at hand nothing is counted.** -/
theorem lBufferCount_eq_zero (h : (system cfg).Reachable s)
    (hmode : (s.session sid).ioMode = .nonSending) : (s.session sid).lBufferCount = 0 :=
  (counted_of_reachable h sid).idle hmode

end MultiLanClient

end DdingGameServer
