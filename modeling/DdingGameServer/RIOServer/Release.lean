import Mathlib.Algebra.Ring.Int.Defs
import Mathlib.Data.Finset.Card
import DdingGameServer.Common.Levels
import DdingGameServer.RIOServer.Staff
/-!
# RIOServer — a session is released once

`ReleaseSession` is called where the reference count reaches zero and where `RecvCompleted` meets a
malformed packet, by whichever thread is there. `countsHeld` is the condition on a step under which
the two never meet on one session: no `RIOReceive` is still uncounted when the count reaches zero,
no sender raises the count from zero, and a receive that fails leaves something outstanding before
its packet releases the session. A session then goes through the phases of `Phase`, the body of
`ReleaseSession` runs at most once, and the two session counters agree with `sessionMap` whenever
nothing is under way.
-/

namespace DdingGameServer

namespace RIOServer

variable {cfg : NetConfig} {s s' : State} {e : Event} {sid : SessionId} {p : Op → Bool} {op : Op}
  {rest : List Op} {ok : Bool} {replies : List NetBuffer} {sh : Shared} {se : RIOSession}
  {res : IoPostError}

/-- The kernel refuses the request that the event makes. -/
def Event.refused : Event → Bool
  | .exec _ ok _ => !ok
  | _ => false

/-- No `RIOReceive` is uncounted when `IOCountDecrement` reaches zero, no send is counted from zero,
and a `RIOReceive` fails after a malformed packet only where something is outstanding. -/
def countsHeld (s : State) (e : Event) : Bool :=
  match s.executing e with
  | some (t, .ioCountDecrement, _) =>
    (s.session t.session).ioCount = 1 → s.pending Op.uncounted t.session = 0
  | some (t, .countSend _ _, _) => 0 < (s.session t.session).ioCount
  | some (t, .rioReceive, rest) =>
    e.refused = true → .releaseOnError true ∈ rest →
      0 < (s.session t.session).outstanding fun _ => true
  | _ => true

/-! ## Operations and the release -/

/-- The thread releases the session for a malformed packet, and its `RIOReceive` is answered. -/
def releasesNext : List Op → Bool
  | [] => false
  | .rioReceive :: _ => false
  | .releaseOnError true :: _ => true
  | _ :: rest => releasesNext rest

theorem mem_of_releasesNext {l : List Op} (h : releasesNext l = true) :
    .releaseOnError true ∈ l := by
  induction l with
  | nil => cases h
  | cons op l ih =>
    rw [releasesNext.eq_def] at h
    split at h
    · cases h
    · cases h
    · rename_i heq
      rw [(List.cons.inj heq).1]
      exact List.mem_cons_self
    · rename_i heq
      rw [(List.cons.inj heq).2] at ih
      exact List.mem_cons_of_mem _ ((List.cons.inj heq).2 ▸ ih h)

/-- Receives, or decides on a release. -/
def Op.decides : Op → Bool
  | .rioReceive | .releaseOnError _ => true
  | _ => false

instance : Op.Apart Op.decides := ⟨rfl, fun _ => rfl, rfl, fun _ => rfl⟩

theorem releasesNext_cons (h : op.decides = false) :
    releasesNext (op :: rest) = releasesNext rest := by
  cases op with
  | rioReceive => cases h
  | releaseOnError packetError => cases h
  | _ => rfl

theorem releasesNext_append {l : List Op} (hl : l.countP Op.decides = 0) :
    releasesNext (l ++ rest) = releasesNext rest := by
  induction l with
  | nil => rfl
  | cons op l ih =>
    rw [List.countP_cons] at hl
    have hop : op.decides = false := by
      by_contra hd
      simp [hd] at hl
    rw [List.cons_append, releasesNext_cons hop, ih (by omega)]

theorem execOp_decides (he : op ≠ .emplaceSession) (hr : ∀ data, op ≠ .recvCompleted data) :
    (execOp cfg op ok replies sid sh se res).code.countP Op.decides = 0 := by
  unfold execOp
  repeat' split
  all_goals simp_all [Op.decides, sendPost, releaseSession]

/-- **A decision to release is new to a thread only after its receive.** -/
theorem releasesNext_exec
    (h : releasesNext ((execOp cfg op ok replies sid sh se res).code ++ rest) = true) :
    op = .rioReceive ∧ releasesNext rest = true ∨ releasesNext (op :: rest) = true := by
  cases op with
  | emplaceSession =>
    simp only [execOp] at h
    split at h
    · rw [releasesNext_append rfl] at h
      exact .inr h
    · cases h
  | recvCompleted data =>
    simp only [execOp, recvPost, List.append_assoc] at h
    rw [releasesNext_append (by simp)] at h
    cases h
  | rioReceive =>
    rw [releasesNext_append (execOp_decides (by simp) (by simp))] at h
    exact .inl ⟨rfl, h⟩
  | releaseOnError packetError =>
    rw [releasesNext_append (execOp_decides (by simp) (by simp))] at h
    cases packetError with
    | true => exact .inr rfl
    | false => exact .inr h
  | _ =>
    rw [releasesNext_append (execOp_decides (by simp) (by simp))] at h
    exact .inr h

theorem execOp_handles
    (h : 0 < (execOp cfg op ok replies sid sh se res).code.countP Op.handles) :
    op.handles = true ∨ op.waits = true ∧ sid ∈ sh.sessionMap := by
  unfold execOp at h
  repeat' split at h
  all_goals
    simp_all [Op.handles, Op.waits, sendPost, recvPost, releaseSession, enterNewSession,
      List.countP_append]

theorem execOp_uncounted (h : op ≠ .rioReceive) :
    (execOp cfg op ok replies sid sh se res).code.countP Op.uncounted = 0 := by
  unfold execOp
  repeat' split
  all_goals
    simp_all [Op.uncounted, sendPost, recvPost, releaseSession, enterNewSession, List.countP_append]

theorem execOp_ioCount (hu : op.uncounted = false) (hd : op ≠ .ioCountDecrement)
    (hc : ∀ ctx copied, op ≠ .countSend ctx copied) :
    (execOp cfg op ok replies sid sh se res).session.ioCount = se.ioCount := by
  unfold execOp
  repeat' split
  all_goals simp_all [Op.uncounted]

/-- An operation takes nothing back from the kernel. -/
theorem outstanding_le_execOp {o : Outcome} (ho : o = execOp cfg op ok replies sid sh se res)
    (q : IOContext → Bool) :
    se.outstanding q ≤ o.session.outstanding q := by
  subst ho
  unfold execOp
  repeat' split
  all_goals simp [RIOSession.outstanding, List.countP_append]

/-- Off the map, references are given back to a count that holds them. -/
theorem execOp_keeps_of_notMem {o : Outcome} (ho : o = execOp cfg op ok replies sid sh se res)
    (h : sid ∉ sh.sessionMap) :
    (o.code.countP Op.keeps : ℤ) + se.ioCount + [op].countP Op.uncounted ≤
      o.session.ioCount + o.code.countP Op.uncounted + [op].countP Op.keeps := by
  subst ho
  unfold execOp
  repeat' split
  all_goals
    simp_all [Op.keeps, Op.uncounted, sendPost, recvPost, releaseSession, enterNewSession,
      List.countP_append, List.countP_cons]
  all_goals omega

/-! ## The phases of a session -/

/-- The worker of the session is inside `ReleaseSession` for it. -/
def Busy (sid : SessionId) (s : State) : Prop :=
  ∀ t ∈ s.threads, t.role = .worker (s.session sid).threadId →
    t.session = sid ∧ .eraseSession ∈ t.code

/-- **How far the release of a session has come.** Before it; after the count reached zero; on its
worker, before the session has left the map; and after it has left. -/
inductive Phase (sid : SessionId) (s : State) : Prop
  | live : s.begun sid = 0 → Phase sid s
  | drained : s.begun sid = 1 → (s.session sid).ioCount = 0 → s.pending Op.uncounted sid = 0 →
      Phase sid s
  | releasing : s.begun sid = 1 → sid ∈ s.shared.sessionMap →
      0 < (s.session sid).outstanding (fun _ => true) → s.pending Op.stages sid = 0 →
      Busy sid s → Phase sid s
  | gone : s.begun sid = 1 → sid ∉ s.shared.sessionMap →
      (1 : ℤ) + s.pending Op.keeps sid ≤ (s.session sid).ioCount + s.pending Op.uncounted sid →
      Phase sid s

/-- **What holds under `countsHeld`.** -/
structure Released (s : State) : Prop where
  phase : ∀ sid, Phase sid s
  handling : ∀ sid, 0 < s.pending Op.handles sid → s.begun sid = 0 ∧ sid ∈ s.shared.sessionMap
  erasing : ∀ sid, 0 < s.pending Op.erases sid → sid ∈ s.shared.sessionMap
  entering : ∀ sid, 0 < s.pending Op.emplaces sid → s.begun sid = 0
  receiving : ∀ t ∈ s.threads, releasesNext t.code = true →
    0 < (s.session t.session).outstanding fun _ => true

theorem Phase.begun_le_one (h : Phase sid s) : s.begun sid ≤ 1 := by
  cases h with
  | live h => omega
  | drained h => omega
  | releasing h => omega
  | gone h => omega

/-- A session whose references are all given back handles no completion. -/
theorem RefCounted.handles_eq_zero (h : RefCounted s) (hk : s.pending Op.keeps sid = 0) :
    s.pending Op.handles sid = 0 := by
  by_contra hpos
  obtain ⟨t, ht, hsid, op, hop, hh⟩ := exists_of_pending_pos (Nat.pos_of_ne_zero hpos)
  have hanchor := (h.guarded t ht).anchors_pos (List.countP_pos_iff.mpr ⟨op, hop, hh⟩)
  obtain ⟨op', hop', ha⟩ := List.countP_pos_iff.mp hanchor
  have hpos' := pending_pos (p := Op.keeps) ht hop' (by
    cases op' <;> simp_all [Op.anchors, Op.keeps])
  rw [hsid] at hpos'
  omega

/-- The first reference of a session is not one of the references given back later. -/
theorem pending_anchors_emplaces (s : State) (sid : SessionId) :
    s.pending Op.anchors sid + s.pending Op.emplaces sid ≤ s.pending Op.keeps sid := by
  simp only [pending_eq_countP]
  induction s.codeOn sid with
  | nil => exact le_rfl
  | cons op l ih =>
    simp only [List.countP_cons]
    cases op <;> simp [Op.anchors, Op.emplaces, Op.keeps] <;> omega

/-- A completion still to be looked at finds a session in the map not released. -/
theorem Phase.begun_eq_zero_of_waits (h : Phase sid s) (hrc : RefCounted s)
    (hm : sid ∈ s.shared.sessionMap) (hw : 0 < s.pending Op.waits sid)
    (hstages : 0 < s.pending Op.stages sid) : s.begun sid = 0 := by
  cases h with
  | live hbegun => exact hbegun
  | drained hbegun hzero hunc =>
    have hlaw := hrc.law sid
    omega
  | releasing hbegun hm' hout hstage hbusy => omega
  | gone hbegun hm' hk => exact absurd hm hm'

/-- And so does one whose packets are being handled. -/
theorem Phase.begun_eq_zero_of_handles (h : Phase sid s) (hrc : RefCounted s)
    (hm : sid ∈ s.shared.sessionMap) (hh : 0 < s.pending Op.handles sid) : s.begun sid = 0 := by
  cases h with
  | live hbegun => exact hbegun
  | drained hbegun hzero hunc =>
    have hlaw := hrc.law sid
    exact absurd (hrc.handles_eq_zero (by omega)) hh.ne'
  | releasing hbegun hm' hout hstage hbusy =>
    have hle : s.pending Op.handles sid ≤ s.pending Op.stages sid := by
      rw [pending_eq_countP, pending_eq_countP]
      exact List.countP_mono_left fun op _ => by cases op <;> simp [Op.handles, Op.stages]
    omega
  | gone hbegun hm' hk => exact absurd hm hm'

/-- The worker stays inside `ReleaseSession` while the session is in the map. -/
theorem Busy.step (h : Busy sid s) (hs : Step cfg s e s') (hsid : sid ≤ s.nextSessionId)
    (hmem : sid ∈ s'.shared.sessionMap) : Busy sid s' := by
  have hthread := hs.threadId hsid
  -- an idle thread is not the worker
  have hidle : ∀ {t u : Thread}, t ∈ s.threads → t.code = [] → u.role = t.role →
      u.role = .worker (s.session sid).threadId → u.session = sid ∧ .eraseSession ∈ u.code := by
    intro t u ht hcode hrole hu
    have := (h t ht (hrole ▸ hu)).2
    rw [hcode] at this
    cases this
  unfold Busy
  rw [hthread]
  cases hs with
  | acceptFailed i threadId => exact h
  | accepted hi hcode hid =>
    exact forall_mem_set h (hidle (List.mem_of_getElem? hi) hcode rfl)
  | gotSession hi hcode hm => exact forall_mem_set h (hidle (List.mem_of_getElem? hi) hcode rfl)
  | called hi hcode hne hcall => exact forall_mem_set h (hidle (List.mem_of_getElem? hi) hcode rfl)
  | completed data hc => exact h
  | dequeued hi hcode hrole hc =>
    exact forall_mem_set h (hidle (List.mem_of_getElem? hi) hcode rfl)
  | @executed i t op rest o ok replies hi hcode ho =>
    refine forall_mem_set h fun hrole => ?_
    obtain ⟨hts, her⟩ := h t (List.mem_of_getElem? hi) hrole
    refine ⟨hts, List.mem_append_right _ ?_⟩
    rw [hcode] at her
    rcases List.mem_cons.mp her with rfl | hrest
    · rw [ho, execOp_sessionMap] at hmem
      simp [hts] at hmem
    · exact hrest

/-- **A release begins on a session that has not been released and is in the map.** -/
theorem Released.starts (h : Released s) (hrc : RefCounted s) (hst : Staffed s) {i : ℕ} {t : Thread}
    (hi : s.threads[i]? = some t) (hcode : t.code = op :: rest)
    (hc : countsHeld s (.exec i ok replies) = true)
    (hstart : startsRelease op t.session s.shared (s.session t.session) = true) :
    s.begun t.session = 0 ∧ t.session ∈ s.shared.sessionMap := by
  rw [countsHeld, executing_eq hi hcode] at hc
  cases op with
  | ioCountDecrement =>
    have hone : (s.session t.session).ioCount = 1 := by simpa [startsRelease] using hstart
    have hunc : s.pending Op.uncounted t.session = 0 := of_decide_eq_true hc hone
    have hlaw := hrc.law t.session
    have hanchor : 0 < s.pending Op.anchors t.session := pending_pos_of_next hi rfl hcode rfl
    have hkeep := pending_anchors_emplaces s t.session
    have hbegun : s.begun t.session = 0 := by
      cases h.phase t.session with
      | live hb => exact hb
      | drained hb hzero _ => omega
      | releasing hb hm hout _ _ => omega
      | gone hb hm hk => omega
    refine ⟨hbegun, ?_⟩
    have hknown := hst.knownThread t (List.mem_of_getElem? hi)
      (.inl (by rw [hcode]; exact List.cons_ne_nil _ _))
    rcases hknown.known with hm | hem | hb
    · exact hm
    · omega
    · omega
  | releaseOnError packetError => exact h.handling _ (pending_pos_of_next hi rfl hcode rfl)
  | emplaceSession =>
    exact absurd (by simpa [startsRelease] using hstart) (hrc.notMem_of_emplace hi hcode)
  | _ => cases hstart

/-- A session in the map has an id that was drawn. -/
theorem RefCounted.drawn_of_mem (h : RefCounted s) (hm : sid ∈ s.shared.sessionMap) :
    sid ≤ s.nextSessionId :=
  Nat.not_lt.mp fun hlt => (h.untouched sid hlt).notMem hm

/-- A worker that calls `ReleaseSession` is the only worker of the session, and busy with it. -/
theorem busy_of_releaseOnError (hst : Staffed s) (hrc : RefCounted s) {i : ℕ} {t : Thread}
    (hi : s.threads[i]? = some t) (hcode : t.code = .releaseOnError true :: rest)
    (hmem : t.session ∈ s.shared.sessionMap) (hs : Step cfg s (.exec i ok replies) s') :
    Busy t.session s' := by
  have hop : .releaseOnError true ∈ t.code := by rw [hcode]; exact List.mem_cons_self
  have hrole := hst.staged t (List.mem_of_getElem? hi) _ hop rfl
  intro u hu hurole
  rw [hs.threadId (hrc.drawn_of_mem hmem)] at hurole
  obtain ⟨j, hj⟩ := List.mem_iff_getElem?.mp hu
  rw [hs.exec_threads hi hcode, List.getElem?_set] at hj
  split at hj
  · split at hj
    · obtain rfl := Option.some.inj hj
      exact ⟨rfl, List.mem_append_left _ (by simp [execOp, releaseSession])⟩
    · cases hj
  · rename_i hne
    exact absurd (hst.index_eq hi hj hrole hurole) hne

/-- **The phase after a call of `ReleaseSession`.** -/
theorem Released.phase_start (h : Released s) (hrc : RefCounted s) (hst : Staffed s) {i : ℕ}
    {t : Thread} {o : Outcome} (hi : s.threads[i]? = some t) (hcode : t.code = op :: rest)
    (hc : countsHeld s (.exec i ok replies) = true) (hs : Step cfg s (.exec i ok replies) s')
    (ho : o = execOp cfg op ok replies t.session s.shared (s.session t.session) t.result)
    (hse : s'.session t.session = o.session) (hsh : s'.shared = o.shared)
    (hp : ∀ p, s'.pending p t.session + [op].countP p = s.pending p t.session + o.code.countP p)
    (hstart : startsRelease op t.session s.shared (s.session t.session) = true) :
    Phase t.session s' := by
  have ht := List.mem_of_getElem? hi
  have hb := begun_exec ho hse (hp Op.begins)
  obtain ⟨hbegun, hmem⟩ := h.starts hrc hst hi hcode hc hstart
  rw [if_pos hstart, hbegun] at hb
  rw [countsHeld, executing_eq hi hcode] at hc
  cases op with
  | ioCountDecrement =>
    have hone : (s.session t.session).ioCount = 1 := by simpa [startsRelease] using hstart
    have hunc : s.pending Op.uncounted t.session = 0 := of_decide_eq_true hc hone
    have hu := hp Op.uncounted
    rw [ho, execOp_uncounted (by simp), hunc] at hu
    refine .drained hb ?_ (by omega)
    rw [hse, ho]
    simp [execOp, hone]
  | releaseOnError packetError =>
    obtain rfl : packetError = true := hstart
    have hm' : t.session ∈ s'.shared.sessionMap := by rw [hsh, ho]; exact hmem
    have hrec := h.receiving t ht (by rw [hcode]; rfl)
    have hout := outstanding_le_execOp ho fun _ => true
    refine .releasing hb hm' (by rw [hse]; omega) ?_
      (busy_of_releaseOnError hst hrc hi hcode hmem hs)
    have hone := hst.oneStage t.session
    have hstages := hp Op.stages
    have : [Op.releaseOnError true].countP Op.stages = 1 := rfl
    have : o.code.countP Op.stages = 0 := by rw [ho]; rfl
    omega
  | emplaceSession =>
    exact absurd (by simpa [startsRelease] using hstart) (hrc.notMem_of_emplace hi hcode)
  | _ => cases hstart

/-- **The phase after an operation.** -/
theorem Released.phase_exec (h : Released s) (hrc : RefCounted s) (hst : Staffed s) {i : ℕ}
    {t : Thread} {o : Outcome} (hi : s.threads[i]? = some t) (hcode : t.code = op :: rest)
    (hc : countsHeld s (.exec i ok replies) = true) (hs : Step cfg s (.exec i ok replies) s')
    (ho : o = execOp cfg op ok replies t.session s.shared (s.session t.session) t.result)
    (hse : s'.session t.session = o.session) (hsh : s'.shared = o.shared)
    (hp : ∀ p, s'.pending p t.session + [op].countP p = s.pending p t.session + o.code.countP p) :
    Phase t.session s' := by
  by_cases hstart : startsRelease op t.session s.shared (s.session t.session) = true
  · exact h.phase_start hrc hst hi hcode hc hs ho hse hsh hp hstart
  have hb := begun_exec ho hse (hp Op.begins)
  rw [if_neg hstart, Nat.add_zero] at hb
  have hlaw := hrc.law t.session
  have hstages := hp Op.stages
  have hstagesLe := execOp_stages ho
  have hout := outstanding_le_execOp ho fun _ => true
  have hpk := hp Op.keeps
  have hpu := hp Op.uncounted
  cases h.phase t.session with
  | live hbegun => exact .live (hb.trans hbegun)
  | drained hbegun hzero hunc =>
    have hposts := hrc.posts_le t.session
    obtain ⟨-, hstirs⟩ := hrc.quiet t.session (by omega)
    have hkeeps : s.pending Op.keeps t.session = 0 := by omega
    have hu : op.uncounted = false := next_eq_false hi rfl hcode hunc
    have hk : op.keeps = false := next_eq_false hi rfl hcode hkeeps
    have hr : op.stirs = false := next_eq_false hi rfl hcode hstirs
    rw [countsHeld, executing_eq hi hcode] at hc
    refine .drained (hb.trans hbegun) ?_ ?_
    · rw [hse, ho, execOp_ioCount hu ?_ ?_, hzero]
      · rintro rfl
        cases hk
      · rintro ctx copied rfl
        have hcount : 0 < (s.session t.session).ioCount := of_decide_eq_true hc
        rw [hzero] at hcount
        exact lt_irrefl 0 hcount
    · rw [ho, execOp_uncounted (by rintro rfl; cases hr), hunc] at hpu
      omega
  | releasing hbegun hmem hout0 hstage hbusy =>
    by_cases her : op = .eraseSession
    · subst her
      rw [ho] at hpk hpu
      simp only [execOp, List.countP_nil, List.countP_singleton, Op.keeps, Op.uncounted] at hpk hpu
      refine .gone (hb.trans hbegun) (by rw [hsh, ho]; simp [execOp]) ?_
      rw [hse, ho]
      simp only [execOp]
      simp at hpk hpu
      omega
    · have hm' : t.session ∈ s'.shared.sessionMap := by
        rw [hsh]
        exact mem_execOp_sessionMap ho her hmem
      refine .releasing (hb.trans hbegun) hm' (by rw [hse]; omega) ?_
        (hbusy.step hs (hrc.drawn_of_mem hmem) hm')
      omega
  | gone hbegun hmem hk =>
    have hbal := execOp_keeps_of_notMem ho hmem
    refine .gone (hb.trans hbegun) ?_ (by rw [hse]; omega)
    rw [hsh, ho, execOp_sessionMap, if_neg]
    · split
      · simp
      · exact hmem
    · rintro rfl
      have := h.entering t.session (pending_pos_of_next hi rfl hcode rfl)
      omega

/-- **The phase after any step.** -/
theorem Released.phase_step (h : Released s) (hrc : RefCounted s) (hst : Staffed s)
    (hc : countsHeld s e = true) (hs : Step cfg s e s') (sid : SessionId) : Phase sid s' := by
  have hbusy : sid ∈ s.shared.sessionMap → sid ∈ s'.shared.sessionMap → Busy sid s → Busy sid s' :=
    fun hm hm' hb => hb.step hs (hrc.drawn_of_mem hm) hm'
  have hphase := h.phase sid
  cases hs.alters sid with
  | kept hkept =>
    obtain ⟨posted, completed, hse⟩ := hkept.session
    have hb := hkept.begun_eq
    have hcount : (s'.session sid).ioCount = (s.session sid).ioCount := by rw [hse]
    cases hphase with
    | live hbegun => exact .live (hb.trans hbegun)
    | drained hbegun hzero hunc =>
      exact .drained (hb.trans hbegun) (hcount.trans hzero) ((hkept.pending _).trans hunc)
    | releasing hbegun hm hout hstage hbz =>
      have hm' := hkept.mem.mpr hm
      rcases hkept.taken with hsame | ⟨t, ht, hcode, hrole⟩
      · have hwaits := hkept.followed (fun _ => true) Op.waits
        rw [hsame] at hwaits
        exact .releasing (hb.trans hbegun) hm' (by omega) ((hsame _).trans hstage)
          (hbusy hm hm' hbz)
      · -- the worker that takes a completion is idle, and so not inside `ReleaseSession`
        have := (hbz t ht hrole).2
        rw [hcode] at this
        cases this
    | gone hbegun hm hkeep =>
      refine .gone (hb.trans hbegun) (fun hm' => hm (hkept.mem.mp hm')) ?_
      rwa [hcount, hkept.pending, hkept.pending]
  | entered threadId hid hnext hlt hse hsh hp =>
    refine .live ?_
    rw [State.begun, hse, hp, hrc.pending_new hid]
    rfl
  | executed ok replies hi hsid hcode ho hse hsh hp =>
    subst hsid
    exact h.phase_exec hrc hst hi hcode hc hs ho hse hsh hp

/-- **Every step under `countsHeld` keeps the invariant.** -/
theorem released_step (h : Released s) (hrc : RefCounted s) (hst : Staffed s)
    (hc : countsHeld s e = true) (hs : Step cfg s e s') : Released s' where
  phase := h.phase_step hrc hst hc hs
  handling sid hpos := by
    have hphase' := h.phase_step hrc hst hc hs sid
    have hrc' := refCounted_step hrc hs
    have hhand := h.handling sid
    cases hs.alters sid with
    | kept hk =>
      rw [hk.begun_eq, hk.mem]
      exact hhand (by rwa [hk.pending] at hpos)
    | entered threadId hid hnext hlt hse hsh hp =>
      rw [hp, hrc.pending_new hid] at hpos
      exact absurd hpos (lt_irrefl 0)
    | @executed s' i t op rest o ok replies hi hsid hcode ho hse hsh hp =>
      have hph := hp Op.handles
      -- what is handled after the step was handled before, or comes from a completion
      have hbefore : s.begun sid = 0 ∧ sid ∈ s.shared.sessionMap := by
        by_cases hz : 0 < s.pending Op.handles sid
        · exact hhand hz
        rcases execOp_handles (by rw [← ho]; omega) with hh | ⟨hw, hm⟩
        · exact absurd (pending_pos_of_next hi hsid hcode hh) hz
        · have hstage : op.stages = true := by cases op <;> simp_all [Op.waits, Op.stages]
          exact ⟨(h.phase sid).begun_eq_zero_of_waits hrc hm (pending_pos_of_next hi hsid hcode hw)
            (pending_pos_of_next hi hsid hcode hstage), hm⟩
      have hmem' : sid ∈ s'.shared.sessionMap := by
        rw [hsh]
        refine mem_execOp_sessionMap ho ?_ hbefore.2
        rintro rfl
        have herases : 0 < s.pending Op.erases sid := pending_pos_of_next hi hsid hcode rfl
        have hle := hst.erases sid
        omega
      exact ⟨hphase'.begun_eq_zero_of_handles hrc' hmem' hpos, hmem'⟩
  erasing sid hpos := by
    have hers := h.erasing sid
    cases hs.alters sid with
    | kept hk => exact hk.mem.mpr (hers (by rwa [hk.pending] at hpos))
    | entered threadId hid hnext hlt hse hsh hp =>
      rw [hp, hrc.pending_new hid] at hpos
      exact absurd hpos (lt_irrefl 0)
    | @executed s' i t op rest o ok replies hi hsid hcode ho hse hsh hp =>
      have hpe := hp Op.erases
      have hle := hst.erases sid
      have hone := (h.phase sid).begun_le_one
      rw [execOp_oncePerRelease ho] at hpe
      have hmem : sid ∈ s.shared.sessionMap := by
        by_cases hstart : startsRelease op sid s.shared (s.session sid) = true
        · exact hsid ▸ (h.starts hrc hst hi hcode hc (by rwa [hsid])).2
        · rw [if_neg hstart] at hpe
          exact hers (by omega)
      rw [hsh]
      refine mem_execOp_sessionMap ho ?_ hmem
      rintro rfl
      simp [startsRelease, Op.erases] at hpe
      omega
  entering sid hpos := by
    have hent := h.entering sid
    cases hs.alters sid with
    | kept hk =>
      rw [hk.begun_eq]
      exact hent (by rwa [hk.pending] at hpos)
    | entered threadId hid hnext hlt hse hsh hp =>
      rw [State.begun, hse, hp, hrc.pending_new hid]
      rfl
    | @executed s' i t op rest o ok replies hi hsid hcode ho hse hsh hp =>
      have hb := begun_exec ho hse (hp Op.begins)
      have hem := hp Op.emplaces
      rw [ho, execOp_emplaces] at hem
      rw [hb, hent (by omega), if_neg]
      intro hstart
      have hm := hsid ▸ (h.starts hrc hst hi hcode hc (by rwa [hsid])).2
      have := hrc.once sid hm
      omega
  receiving := by
    have hold : ∀ u ∈ s.threads, releasesNext u.code = true →
        0 < (s'.session u.session).outstanding fun _ => true := by
      intro u hu hnext
      have hrec := h.receiving u hu hnext
      cases hs.alters u.session with
      | kept hk =>
        rcases hk.taken with hsame | ⟨t, ht, hcode, hrole⟩
        · have hwaits := hk.followed (fun _ => true) Op.waits
          rw [hsame] at hwaits
          omega
        · -- the session's worker is the thread that handles the receive
          have hurole := hst.staged u hu _ (mem_of_releasesNext hnext) rfl
          obtain rfl := hst.eq_of_role ht hu hrole hurole
          rw [hcode] at hnext
          cases hnext
      | entered threadId hid hnext' hlt hse hsh hp =>
        exact absurd (hrc.drawn u hu) (Nat.not_le.mpr (hid ▸ lt_newSessionId))
      | executed ok replies hi hsid hcode ho hse hsh hp =>
        rw [hse]
        exact hrec.trans_le (outstanding_le_execOp ho _)
    have hnone : ∀ {code : List Op} {sid : SessionId}, code.countP Op.decides = 0 →
        releasesNext code = true → 0 < (s'.session sid).outstanding fun _ => true := by
      intro code sid hzero hnext
      rw [← List.append_nil code, releasesNext_append hzero] at hnext
      cases hnext
    cases hs with
    | acceptFailed i threadId => exact hold
    | accepted hi hcode hid => exact forall_mem_set hold (hnone rfl)
    | gotSession hi hcode hm => exact forall_mem_set hold (hnone (by rw [hcode]; rfl))
    | called hi hcode hne hcall => exact forall_mem_set hold (hnone hcall.countP_eq_zero)
    | completed data hk => exact hold
    | dequeued hi hcode hrole hk => exact forall_mem_set hold (hnone rfl)
    | @executed i t op rest o ok replies hi hcode ho =>
      refine forall_mem_set hold fun hnext => ?_
      have ht := List.mem_of_getElem? hi
      rw [ho] at hnext
      rcases releasesNext_exec hnext with ⟨rfl, hrest⟩ | hthread
      · rw [countsHeld, executing_eq hi hcode] at hc
        change 0 < RIOSession.outstanding _ (Function.update s.session t.session o.session t.session)
        rw [Function.update_self, ho]
        cases ok with
        | true =>
          simp only [RIOSession.outstanding, execOp, if_true, List.countP_append, List.countP_true,
            List.countP_cons_of_pos, List.countP_nil]
          omega
        | false => exact of_decide_eq_true hc rfl (mem_of_releasesNext hrest)
      · exact hold t ht (by rwa [hcode])

theorem released_initial (numOfWorkerThread senders : ℕ) :
    Released (initialState numOfWorkerThread senders) := by
  have hbegun : ∀ sid, (initialState numOfWorkerThread senders).begun sid = 0 := fun sid => by
    rw [State.begun, pending_initial]
    rfl
  refine ⟨fun sid => .live (hbegun sid), fun sid h => ?_, fun sid h => ?_, fun sid _ => hbegun sid,
    fun t ht h => ?_⟩
  · rw [pending_initial] at h
    exact absurd h (lt_irrefl 0)
  · rw [pending_initial] at h
    exact absurd h (lt_irrefl 0)
  · rw [(idle_initial ht).1] at h
    cases h

/-! ## The counters -/

/-- How many operations satisfying `p` all threads still have to execute, on any session. -/
def State.pendingAll (p : Op → Bool) (s : State) : ℕ := tally (fun t => t.code.countP p) s.threads

def Op.decsSessionCount : Op → Bool
  | .decSessionCount => true
  | _ => false

def Op.decsWorkerCount : Op → Bool
  | .decWorkerCount => true
  | _ => false

def Op.incsSessionCount : Op → Bool
  | .incSessionCount => true
  | _ => false

def Op.incsWorkerCount : Op → Bool
  | .incWorkerCount => true
  | _ => false

instance : Op.Apart Op.incsSessionCount := ⟨rfl, fun _ => rfl, rfl, fun _ => rfl⟩
instance : Op.Apart Op.incsWorkerCount := ⟨rfl, fun _ => rfl, rfl, fun _ => rfl⟩
instance : Op.OncePerRelease Op.decsSessionCount :=
  ⟨⟨rfl, fun _ => rfl, rfl, fun _ => rfl⟩, rfl, fun op h => by
    cases op <;> simp_all [Op.releasing, Op.decsSessionCount]⟩
instance : Op.OncePerRelease Op.decsWorkerCount :=
  ⟨⟨rfl, fun _ => rfl, rfl, fun _ => rfl⟩, rfl, fun op h => by
    cases op <;> simp_all [Op.releasing, Op.decsWorkerCount]⟩

theorem pendingAll_of_idle {i : ℕ} {t u : Thread} (hi : s.threads[i]? = some t)
    (ht : t.code = []) (hs' : s'.threads = s.threads.set i u) :
    s'.pendingAll p = s.pendingAll p + u.code.countP p := by
  have := tally_set (f := fun t => t.code.countP p) (b := u) hi
  rw [ht, ← hs'] at this
  exact this

theorem pendingAll_of_exec {i : ℕ} {t u : Thread} {code : List Op} (hi : s.threads[i]? = some t)
    (ht : t.code = op :: rest) (hu : u.code = code ++ rest) (hs' : s'.threads = s.threads.set i u) :
    s'.pendingAll p + [op].countP p = s.pendingAll p + code.countP p := by
  have := tally_set (f := fun t => t.code.countP p) (b := u) hi
  rw [ht, hu, ← hs', List.countP_append, List.countP_cons] at this
  rw [List.countP_singleton]
  simp only [State.pendingAll]
  omega

theorem execOp_sessionCount {o : Outcome} (ho : o = execOp cfg op ok replies sid sh se res) :
    o.shared.sessionCount + [op].countP Op.decsSessionCount =
      sh.sessionCount + [op].countP Op.incsSessionCount := by
  subst ho
  unfold execOp
  repeat' split
  all_goals
    simp [Op.decsSessionCount, Op.incsSessionCount, Shared.freeContext, Shared.allocContext]

theorem execOp_workerCount {o : Outcome} (ho : o = execOp cfg op ok replies sid sh se res)
    (h : se.threadId < sh.numOfSessionInWorkerThread.length) :
    o.shared.numOfSessionInWorkerThread.sum +
        [op].countP Op.decsWorkerCount =
      sh.numOfSessionInWorkerThread.sum + [op].countP Op.incsWorkerCount := by
  subst ho
  unfold execOp
  repeat' split
  all_goals
    simp [Op.decsWorkerCount, Op.incsWorkerCount, Shared.freeContext, Shared.allocContext,
      Levels.sum_modify_add h, sub_eq_add_neg]

theorem execOp_card {o : Outcome} (ho : o = execOp cfg op ok replies sid sh se res)
    (hm : op = .emplaceSession → sid ∉ sh.sessionMap)
    (he : op = .eraseSession → sid ∈ sh.sessionMap) :
    o.shared.sessionMap.card + [op].countP Op.erases =
      sh.sessionMap.card + [op].countP Op.emplaces := by
  subst ho
  rw [execOp_sessionMap]
  split
  · rename_i hop
    rw [Finset.card_insert_of_notMem (hm hop), hop]
    rfl
  · rename_i hop
    have hz : [op].countP Op.emplaces = 0 := by
      cases op <;> first | rfl | exact absurd rfl hop
    split
    · rename_i hop'
      rw [hz, hop', Nat.add_zero]
      exact Finset.card_erase_add_one (he hop')
    · rename_i hop'
      have : [op].countP Op.erases = 0 := by
        cases op <;> first | rfl | exact absurd rfl hop'
      omega

/-- The accepter counts the session it put into the map, later. -/
theorem execOp_incsSessionCount (hm : op = .emplaceSession → sid ∉ sh.sessionMap) :
    (execOp cfg op ok replies sid sh se res).code.countP Op.incsSessionCount =
      [op].countP Op.emplaces := by
  unfold execOp
  repeat' split
  all_goals
    simp_all [Op.incsSessionCount, Op.emplaces, sendPost, recvPost, releaseSession, enterNewSession,
      List.countP_append]

theorem execOp_incsWorkerCount :
    (execOp cfg op ok replies sid sh se res).code.countP Op.incsWorkerCount = 0 := by
  unfold execOp
  repeat' split
  all_goals
    simp [Op.incsWorkerCount, sendPost, recvPost, releaseSession, enterNewSession,
      List.countP_append]

/-- **The two counters agree with `sessionMap`**, up to the increments and decrements the threads
still have to make. -/
structure Counted (s : State) : Prop where
  sessions : s.shared.sessionCount + s.pendingAll Op.incsSessionCount + s.pendingAll Op.erases =
    s.shared.sessionMap.card + s.pendingAll Op.decsSessionCount
  workers : s.shared.numOfSessionInWorkerThread.sum + s.pendingAll Op.incsWorkerCount +
    s.pendingAll Op.erases = s.shared.sessionMap.card + s.pendingAll Op.emplaces +
    s.pendingAll Op.decsWorkerCount

/-- An idle thread that starts code without any such operation changes nothing. -/
theorem Counted.of_idle (h : Counted s) {i : ℕ} {t u : Thread} (hi : s.threads[i]? = some t)
    (ht : t.code = []) (hs' : s'.threads = s.threads.set i u) (hsh : s'.shared = s.shared)
    (hinc : u.code.countP Op.incsSessionCount = 0) (hrel : u.code.countP Op.releasing = 0)
    (hw : u.code.countP Op.incsWorkerCount = u.code.countP Op.emplaces) : Counted s' := by
  have hnone : ∀ p, [Op.OncePerRelease p] → u.code.countP p = 0 := fun p hp =>
    List.countP_eq_zero.mpr fun op hop => by
      simp [hp.nowhereElse op (by simpa using List.countP_eq_zero.mp hrel op hop)]
  have he := hnone Op.erases
  have hd := hnone Op.decsSessionCount
  have hdw := hnone Op.decsWorkerCount
  have hses := h.sessions
  have hwor := h.workers
  constructor
  · rw [hsh, pendingAll_of_idle hi ht hs', pendingAll_of_idle hi ht hs',
      pendingAll_of_idle hi ht hs', hinc, he, hd]
    exact hses
  · rw [hsh, pendingAll_of_idle hi ht hs', pendingAll_of_idle hi ht hs',
      pendingAll_of_idle hi ht hs', pendingAll_of_idle hi ht hs', he, hdw]
    omega

/-- **An operation moves a counter together with what is left to do about it.** -/
theorem Counted.exec (h : Counted s) {i : ℕ} {t u : Thread} {o : Outcome}
    (hi : s.threads[i]? = some t) (hcode : t.code = op :: rest)
    (ho : o = execOp cfg op ok replies sid s.shared (s.session sid) res)
    (hu : u.code = o.code ++ rest) (hs' : s'.threads = s.threads.set i u)
    (hsh : s'.shared = o.shared) (hm : op = .emplaceSession → sid ∉ s.shared.sessionMap)
    (he : op = .eraseSession → sid ∈ s.shared.sessionMap)
    (hlt : (s.session sid).threadId < s.shared.numOfSessionInWorkerThread.length) : Counted s' := by
  have hp := fun p => pendingAll_of_exec (p := p) hi hcode hu hs'
  have hsc := execOp_sessionCount ho
  have hwc := execOp_workerCount ho hlt
  have hcard := execOp_card ho hm he
  rw [← hsh] at hsc hwc hcard
  have hinc := hp Op.incsSessionCount
  have hincw := hp Op.incsWorkerCount
  have hem := hp Op.emplaces
  have her := hp Op.erases
  have hdec := hp Op.decsSessionCount
  have hdecw := hp Op.decsWorkerCount
  rw [ho, execOp_incsSessionCount hm] at hinc
  rw [ho, execOp_incsWorkerCount] at hincw
  rw [ho, execOp_emplaces] at hem
  rw [execOp_oncePerRelease ho] at her hdec hdecw
  have hses := h.sessions
  have hwor := h.workers
  constructor <;> omega

theorem counted_step (h : Counted s) (hrc : RefCounted s) (hst : Staffed s) (hre : Released s)
    (hs : Step cfg s e s') : Counted s' := by
  cases hs with
  | acceptFailed i threadId => exact ⟨h.sessions, h.workers⟩
  | accepted hi hcode hid => exact h.of_idle hi hcode rfl rfl rfl rfl rfl
  | gotSession hi hcode hm =>
    exact h.of_idle hi hcode rfl rfl (by rw [hcode]; rfl) (by rw [hcode]; rfl) (by rw [hcode]; rfl)
  | called hi hcode hne hcall =>
    exact h.of_idle hi hcode rfl rfl hcall.countP_eq_zero hcall.countP_eq_zero
      (hcall.countP_eq_zero.trans hcall.countP_eq_zero.symm)
  | completed data hk => exact ⟨h.sessions, h.workers⟩
  | dequeued hi hcode hrole hk => exact h.of_idle hi hcode rfl rfl rfl rfl rfl
  | @executed i t op rest o ok replies hi hcode ho =>
    have ht := List.mem_of_getElem? hi
    have hop : op ∈ t.code := by rw [hcode]; exact List.mem_cons_self
    refine h.exec hi hcode ho rfl rfl rfl ?_ ?_
      (hst.knownThread t ht (.inl (List.ne_nil_of_mem hop))).threadId
    · rintro rfl
      exact hrc.notMem_of_emplace hi hcode
    · rintro rfl
      exact hre.erasing _ (pending_pos_of_next hi rfl hcode rfl)

theorem counted_initial (numOfWorkerThread senders : ℕ) :
    Counted (initialState numOfWorkerThread senders) := by
  have hp : ∀ p, (initialState numOfWorkerThread senders).pendingAll p = 0 := fun p =>
    tally_eq_zero.mpr fun t ht => by rw [(idle_initial ht).1]; rfl
  constructor <;> simp only [hp] <;> simp [initialState]

/-! ## The results -/

/-- The operations of `SendPacket`, `SendPacketAndDisconnect` and `SendPost`. -/
def Op.sends : Op → Bool
  | .setSendDisconnect | .enqueue _ | .sendPostCas | .sendPostCheck | .sendPostReset
  | .sendPostRecheck | .makeSendStream | .streamLoop _ _ _ _ | .countSend _ _ | .rioSend _ _
  | .ioCountDecrement => true
  | _ => false

/-- They are none of the operations the counters depend on. -/
theorem Op.sends_apart (h : op.sends = true) :
    op.incsSessionCount = false ∧ op.incsWorkerCount = false ∧ op.emplaces = false ∧
      op.erases = false ∧ op.decsSessionCount = false ∧ op.decsWorkerCount = false := by
  cases op <;> first | exact ⟨rfl, rfl, rfl, rfl, rfl, rfl⟩ | cases h

/-- No thread is in the middle of accepting, handling a completion or releasing: what is left to do
is sending. -/
def Settled (s : State) : Prop := ∀ t ∈ s.threads, ∀ op ∈ t.code, op.sends = true

instance (s : State) : Decidable (Settled s) :=
  inferInstanceAs (Decidable (∀ t ∈ s.threads, ∀ op ∈ t.code, op.sends = true))

theorem Settled.pendingAll_eq_zero (h : Settled s) (hp : ∀ op, op.sends = true → p op = false) :
    s.pendingAll p = 0 := by
  refine tally_eq_zero.mpr fun t ht => List.countP_eq_zero.mpr fun op hop => ?_
  simp [hp op (h t ht op hop)]

/-- No session is released twice, and where nothing is under way `sessionCount` and the sum of
`numOfSessionInWorkerThread` are both the number of sessions in `sessionMap`. -/
structure ReleasedOnce (s : State) : Prop where
  releases : ∀ sid, (s.session sid).releases ≤ 1
  sessionCount : Settled s → s.shared.sessionCount = s.shared.sessionMap.card
  workerCount : Settled s → s.shared.numOfSessionInWorkerThread.sum = s.shared.sessionMap.card

/-- **The counters where nothing is under way.** -/
theorem Counted.of_settled (h : Counted s) (hset : Settled s) :
    s.shared.sessionCount = s.shared.sessionMap.card ∧
      s.shared.numOfSessionInWorkerThread.sum = s.shared.sessionMap.card := by
  have hses := h.sessions
  have hwor := h.workers
  have hinc := hset.pendingAll_eq_zero fun _ h => (Op.sends_apart h).1
  have hincw := hset.pendingAll_eq_zero fun _ h => (Op.sends_apart h).2.1
  have hem := hset.pendingAll_eq_zero fun _ h => (Op.sends_apart h).2.2.1
  have her := hset.pendingAll_eq_zero fun _ h => (Op.sends_apart h).2.2.2.1
  have hdec := hset.pendingAll_eq_zero fun _ h => (Op.sends_apart h).2.2.2.2.1
  have hdecw := hset.pendingAll_eq_zero fun _ h => (Op.sends_apart h).2.2.2.2.2
  omega

/-- **A session is released once.** In every run whose steps all meet `countsHeld`, the body of
`ReleaseSession` is executed at most once for every session, and both counters agree with
`sessionMap` whenever no thread is accepting, handling or releasing. -/
theorem releasedOnce_of_reachableUnder
    (h : (system cfg).ReachableUnder (fun s e => countsHeld s e = true) s) : ReleasedOnce s := by
  have hinv : RefCounted s ∧ Staffed s ∧ Released s ∧ Counted s := by
    refine reachable_of_step (P := fun s => RefCounted s ∧ Staffed s ∧ Released s ∧ Counted s)
      (fun n m => ⟨refCounted_initial n m, staffed_initial n m, released_initial n m,
        counted_initial n m⟩) (fun s e s' hP hc hs => ?_) h
    obtain ⟨hrc, hst, hre, hco⟩ := hP
    exact ⟨refCounted_step hrc hs, staffed_step hst hrc hs, released_step hre hrc hst hc hs,
      counted_step hco hrc hst hre hs⟩
  obtain ⟨-, -, hre, hco⟩ := hinv
  refine ⟨fun sid => ?_, fun hset => (hco.of_settled hset).1, fun hset => (hco.of_settled hset).2⟩
  have := (hre.phase sid).begun_le_one
  simp only [State.begun] at this
  omega

/-- Such a run: a client connects and closes, and its session is released by the worker. -/
theorem releasedOnce_zeroByte : ∃ s,
    (system checksumConfig).ReachableUnder (fun s e => countsHeld s e = true) s ∧
      ((s.session 2).releases = 1 ∧ Settled s) ∧ ReleasedOnce s := by
  obtain ⟨s, hs, hf⟩ := System.exists_reachableUnder (system checksumConfig)
    (.accept 0 0 [] true :: execs 0 7 ++ [.complete 2 0 [], .dequeue 1 2 0] ++ execs 1 8)
    (s := initialState 1 0) (c := countsHeld)
    (f := fun s => decide ((s.session 2).releases = 1 ∧ Settled s)) ⟨1, 0, rfl⟩
    (by decide +kernel)
  exact ⟨s, hs, of_decide_eq_true hf, releasedOnce_of_reachableUnder hs⟩

/-- **A client that closes at once is released twice.** The worker handles the zero-byte completion
between the accepter's `RIOReceive` and the increment that counts it: its decrement reaches zero,
and so does the accepter's own, afterwards. -/
theorem not_releasedOnce : ¬ ∀ s, (system checksumConfig).Reachable s → ReleasedOnce s := by
  intro hall
  obtain ⟨s, hs, hf⟩ := System.exists_reachable (system checksumConfig)
    (.accept 0 0 [] true :: execs 0 3 ++ [.complete 2 0 [], .dequeue 1 2 0] ++ execs 1 8 ++
      execs 0 4)
    (s := initialState 1 0) (f := fun s => decide (2 ≤ (s.session 2).releases)) ⟨1, 0, rfl⟩
    (by decide +kernel)
  have hone := (hall s hs).releases 2
  have htwo : 2 ≤ (s.session 2).releases := of_decide_eq_true hf
  omega

end RIOServer

end DdingGameServer
