import Mathlib.Algebra.GroupWithZero.Nat
import DdingGameServer.Common.Levels
import DdingGameServer.Common.System
/-!
# RIOServer — which worker a new session goes to

`GetMinimumSessionThreadId` looks for the worker with the fewest sessions. It starts its minimum at
`maxClientCount`, which is a number of clients for the whole server and not one of the counters, and
nothing keeps the accepter from accepting more. Once every worker has that many, no counter is below
the start, and the answer is worker 0 from then on.

The counters are taken not to wrap. There are at most 255 workers: their number is a `BYTE`, as is
the variable of the loop.
-/

namespace DdingGameServer

namespace RIOServer

open Levels

/-- The loop of `GetMinimumSessionThreadId`, from `threadId` on. -/
def minimumLoop (threadId minimumSessionCount targetThreadId : ℕ) : List ℕ → ℕ
  | [] => targetThreadId
  | count :: counts =>
    if count = 0 then threadId
    else if count < minimumSessionCount then minimumLoop (threadId + 1) count threadId counts
    else minimumLoop (threadId + 1) minimumSessionCount targetThreadId counts

/-- `GetMinimumSessionThreadId`. -/
def getMinimumSessionThreadId (maxClientCount : ℕ) (numOfSessionInWorkerThread : List ℕ) : ℕ :=
  minimumLoop 0 maxClientCount 0 numOfSessionInWorkerThread

/-- The counters of the workers, and the worker of each session there is. -/
structure WorkerLoad where
  numOfSessionInWorkerThread : List ℕ
  sessions : List ℕ
  deriving DecidableEq, Repr

inductive LoadEvent
  /-- `MakeNewSession`, with the answer of `InitSession`. -/
  | makeNewSession (ok : Bool)
  /-- `ReleaseSession` of the `k`-th session. -/
  | releaseSession (k : ℕ)
  deriving DecidableEq, Repr

/-- The event is a session that was accepted. -/
def LoadEvent.accepts : LoadEvent → Bool
  | .makeNewSession ok => ok
  | .releaseSession _ => false

/-- The event is a session that was released. -/
def LoadEvent.releases : LoadEvent → Bool
  | .makeNewSession _ => false
  | .releaseSession _ => true

/-- The empty server. -/
def WorkerLoad.start (numOfWorkerThread : ℕ) : WorkerLoad where
  numOfSessionInWorkerThread := List.replicate numOfWorkerThread 0
  sessions := []

/-- **Sessions that come and go**, for any number of workers. -/
def workerLoads (maxClientCount : ℕ) : System WorkerLoad LoadEvent where
  Init s := ∃ numOfWorkerThread, s = .start numOfWorkerThread
  step s e :=
    match e with
    | .makeNewSession false => some s
    | .makeNewSession true =>
      let threadId := getMinimumSessionThreadId maxClientCount s.numOfSessionInWorkerThread
      some
        { numOfSessionInWorkerThread := s.numOfSessionInWorkerThread.modify threadId (· + 1)
          sessions := s.sessions ++ [threadId] }
    | .releaseSession k => s.sessions[k]?.map fun threadId =>
        { numOfSessionInWorkerThread := s.numOfSessionInWorkerThread.modify threadId (· - 1)
          sessions := s.sessions.eraseIdx k }

variable {maxClientCount n : ℕ} {counts : List ℕ}
  {s s' : WorkerLoad} {e : LoadEvent} {es : List LoadEvent}

/-! ## The search -/

/-- **What the loop answers**: the place of a least counter, which is 0 or below the minimum it
started with; or, where there is no such counter, what it had. -/
theorem minimumLoop_cases (counts : List ℕ) (threadId minimumSessionCount targetThreadId : ℕ) :
    (∃ i c, minimumLoop threadId minimumSessionCount targetThreadId counts = threadId + i ∧
      counts[i]? = some c ∧ (∀ x ∈ counts, c ≤ x) ∧ (c = 0 ∨ c < minimumSessionCount)) ∨
    minimumLoop threadId minimumSessionCount targetThreadId counts = targetThreadId ∧
      ∀ x ∈ counts, x ≠ 0 ∧ minimumSessionCount ≤ x := by
  induction counts generalizing threadId minimumSessionCount targetThreadId with
  | nil => exact .inr ⟨rfl, fun x hx => absurd hx List.not_mem_nil⟩
  | cons count counts ih =>
    by_cases hzero : count = 0
    · refine .inl ⟨0, count, ?_, rfl, fun x _ => by omega, .inl hzero⟩
      rw [minimumLoop, if_pos hzero, Nat.add_zero]
    · by_cases hlt : count < minimumSessionCount
      · rw [minimumLoop, if_neg hzero, if_pos hlt]
        rcases ih (threadId + 1) count threadId with
          ⟨i, c, hres, hi, hleast, hc⟩ | ⟨hres, hall⟩
        · refine .inl ⟨i + 1, c, by omega, hi, ?_, by omega⟩
          exact List.forall_mem_cons.mpr ⟨by omega, hleast⟩
        · refine .inl ⟨0, count, by omega, rfl, ?_, .inr hlt⟩
          exact List.forall_mem_cons.mpr ⟨le_rfl, fun x hx => (hall x hx).2⟩
      · rw [minimumLoop, if_neg hzero, if_neg hlt]
        rcases ih (threadId + 1) minimumSessionCount targetThreadId with
          ⟨i, c, hres, hi, hleast, hc⟩ | ⟨hres, hall⟩
        · refine .inl ⟨i + 1, c, by omega, hi, ?_, hc⟩
          exact List.forall_mem_cons.mpr ⟨by omega, hleast⟩
        · exact .inr ⟨hres, List.forall_mem_cons.mpr ⟨⟨hzero, by omega⟩, hall⟩⟩

/-- Where a worker has no session or fewer than `maxClientCount`, one with the fewest is found, -/
theorem isLeast_getMinimum (h : ∃ c ∈ counts, c = 0 ∨ c < maxClientCount) :
    IsLeast counts (getMinimumSessionThreadId maxClientCount counts) := by
  rcases minimumLoop_cases counts 0 maxClientCount 0 with ⟨i, c, hres, hi, hleast, -⟩ | ⟨-, hall⟩
  · rw [Nat.zero_add] at hres
    rw [getMinimumSessionThreadId, hres]
    exact ⟨c, hi, hleast⟩
  · obtain ⟨c, hmem, hc⟩ := h
    obtain ⟨hpos, hle⟩ := hall c hmem
    omega

/-- and otherwise it is worker 0. -/
theorem getMinimum_eq_zero (h : ¬ ∃ c ∈ counts, c = 0 ∨ c < maxClientCount) :
    getMinimumSessionThreadId maxClientCount counts = 0 := by
  rcases minimumLoop_cases counts 0 maxClientCount 0 with ⟨i, c, -, hi, -, hc⟩ | ⟨hres, -⟩
  · exact absurd ⟨c, List.mem_of_getElem? hi, hc⟩ h
  · exact hres

/-- **The worker that is found has the fewest sessions exactly where a worker has none or fewer than
`maxClientCount`, or worker 0 has the fewest.** -/
theorem isLeast_getMinimum_iff : IsLeast counts (getMinimumSessionThreadId maxClientCount counts) ↔
    (∃ c ∈ counts, c = 0 ∨ c < maxClientCount) ∨ IsLeast counts 0 := by
  by_cases h : ∃ c ∈ counts, c = 0 ∨ c < maxClientCount
  · exact iff_of_true (isLeast_getMinimum h) (.inl h)
  · rw [getMinimum_eq_zero h, or_iff_right h]

/-! ## Accepting without releasing -/

/-- How many sessions each worker gets before the search gives up: at least one, since a worker
without any is always found. -/
def share (maxClientCount : ℕ) : ℕ := max 1 maxClientCount

theorem exists_below_share_iff :
    (∃ c ∈ counts, c = 0 ∨ c < maxClientCount) ↔ ∃ c ∈ counts, c < share maxClientCount := by
  refine exists_congr fun c => and_congr_right fun _ => ?_
  rw [share]
  omega

/-- **The counters while sessions only come**: level up to the share of each worker, and from then on
everything is heaped on worker 0. -/
inductive Spread (share n : ℕ) (counts : List ℕ) : Prop
  | level : (∀ c ∈ counts, c ≤ share) → Level counts → Spread share n counts
  | heaped (d : ℕ) : counts = (share + (d + 1)) :: List.replicate (n - 1) share →
      Spread share n counts

/-- **One session more.** -/
theorem Spread.accept (h : Spread (share maxClientCount) n counts) (hlen : counts.length = n)
    (hn : 1 ≤ n) : Spread (share maxClientCount) n
      (counts.modify (getMinimumSessionThreadId maxClientCount counts) (· + 1)) := by
  cases h with
  | level hle hlevel =>
    by_cases hbelow : ∃ c ∈ counts, c < share maxClientCount
    · have hleast := isLeast_getMinimum (exists_below_share_iff.mpr hbelow)
      refine .level (fun x hx => ?_) (hlevel.modify hleast)
      rcases mem_modify hx with hx | ⟨c, hc, rfl⟩
      · exact hle x hx
      · -- the least counter is below the share, as some counter is
        obtain ⟨c', hc', hmin⟩ := hleast
        obtain rfl := Option.some.inj (hc.symm.trans hc')
        obtain ⟨x, hx, hlt⟩ := hbelow
        have hcx := hmin x hx
        omega
    · have hfull : counts = List.replicate n (share maxClientCount) := by
        refine List.eq_replicate_iff.mpr ⟨hlen, fun c hc => le_antisymm (hle c hc) ?_⟩
        exact Nat.not_lt.mp fun hlt => hbelow ⟨c, hc, hlt⟩
      rw [getMinimum_eq_zero (fun hex => hbelow (exists_below_share_iff.mp hex)), hfull]
      obtain ⟨k, rfl⟩ : ∃ k, n = k + 1 := ⟨n - 1, by omega⟩
      exact .heaped 0 rfl
  | heaped d hcounts =>
    have hnone : ¬ ∃ c ∈ counts, c < share maxClientCount := by
      rintro ⟨c, hc, hlt⟩
      rw [hcounts] at hc
      rcases List.mem_cons.mp hc with rfl | hc
      · omega
      · rw [List.eq_of_mem_replicate hc] at hlt
        omega
    rw [getMinimum_eq_zero (fun hex => hnone (exists_below_share_iff.mp hex)), hcounts]
    exact .heaped (d + 1) rfl

/-- **The counters are level up to one session more than everybody's share.** -/
theorem Spread.level_iff {share : ℕ} (h : Spread share n counts) (hlen : counts.length = n)
    (hn : 1 ≤ n) : Level counts ↔ n = 1 ∨ counts.sum ≤ n * share + 1 := by
  cases h with
  | level hle hlevel =>
    have hsum : counts.sum ≤ counts.length • share := List.sum_le_card_nsmul _ _ hle
    rw [hlen, smul_eq_mul] at hsum
    exact iff_of_true hlevel (.inr (by omega))
  | heaped d hcounts =>
    obtain ⟨k, rfl⟩ : ∃ k, n = k + 1 := ⟨n - 1, by omega⟩
    have hsum : counts.sum = (k + 1) * share + (d + 1) := by
      rw [hcounts, List.sum_cons, Nat.add_sub_cancel, List.sum_replicate, smul_eq_mul,
        Nat.add_one_mul]
      omega
    rw [hsum, hcounts, Nat.add_sub_cancel]
    constructor
    · intro hlevel
      cases k with
      | zero => exact .inl rfl
      | succ k =>
        have hle := hlevel (share + (d + 1)) List.mem_cons_self share (by simp)
        exact .inr (by omega)
    · rintro hone a ha b hb
      rcases List.mem_cons.mp ha with rfl | ha
      · rcases List.mem_cons.mp hb with rfl | hb
        · omega
        · rw [List.eq_of_mem_replicate hb]
          have hk : k ≠ 0 := by
            rintro rfl
            cases hb
          omega
      · rw [List.eq_of_mem_replicate ha]
        rcases List.mem_cons.mp hb with rfl | hb
        · omega
        · rw [List.eq_of_mem_replicate hb]
          omega

/-- What holds of the counters after `accepted` sessions and no release. -/
structure FilledTo (maxClientCount n accepted : ℕ) (s : WorkerLoad) : Prop where
  length : s.numOfSessionInWorkerThread.length = n
  spread : Spread (share maxClientCount) n s.numOfSessionInWorkerThread
  sum : s.numOfSessionInWorkerThread.sum = accepted

theorem filledTo_start : FilledTo maxClientCount n 0 (.start n) := by
  refine ⟨List.length_replicate, .level (fun c hc => ?_) (fun a ha b hb => ?_), ?_⟩
  · rw [List.eq_of_mem_replicate hc]
    exact Nat.zero_le _
  · rw [List.eq_of_mem_replicate ha]
    exact Nat.zero_le _
  · show (List.replicate n 0).sum = 0
    rw [List.sum_replicate, smul_eq_mul, Nat.mul_zero]

/-- **A session that is accepted is counted once.** -/
theorem FilledTo.step {accepted : ℕ} (h : FilledTo maxClientCount n accepted s) (hn : 1 ≤ n)
    (hrelease : e.releases = false) (hs : (workerLoads maxClientCount).step s e = some s') :
    FilledTo maxClientCount n (accepted + [e].countP LoadEvent.accepts) s' := by
  cases e with
  | releaseSession k => cases hrelease
  | makeNewSession ok =>
    cases ok with
    | false =>
      obtain rfl := Option.some.inj hs
      exact h
    | true =>
      obtain rfl := Option.some.inj hs
      have hlt : getMinimumSessionThreadId maxClientCount s.numOfSessionInWorkerThread <
          s.numOfSessionInWorkerThread.length := by
        by_cases hbelow : ∃ c ∈ s.numOfSessionInWorkerThread, c = 0 ∨ c < maxClientCount
        · obtain ⟨c, hc, -⟩ := isLeast_getMinimum hbelow
          exact (List.getElem?_eq_some_iff.mp hc).1
        · rw [getMinimum_eq_zero hbelow, h.length]
          exact hn
      refine ⟨by rw [List.length_modify, h.length], h.spread.accept h.length hn, ?_⟩
      show (s.numOfSessionInWorkerThread.modify _ (· + 1)).sum = accepted + 1
      rw [sum_modify_add hlt, h.sum]

/-- And so over a run. -/
theorem FilledTo.run {accepted : ℕ} (h : FilledTo maxClientCount n accepted s) (hn : 1 ≤ n)
    (hreleases : ∀ e ∈ es, e.releases = false)
    (hr : (workerLoads maxClientCount).run s es = some s') :
    FilledTo maxClientCount n (accepted + es.countP LoadEvent.accepts) s' := by
  induction es generalizing s accepted with
  | nil =>
    obtain rfl : s = s' := by simpa using hr
    exact h
  | cons e es ih =>
    obtain ⟨t, ht, hrest⟩ := System.run_cons_eq_some.mp hr
    obtain ⟨he, hes⟩ := List.forall_mem_cons.mp hreleases
    have hnext := ih (h.step hn he ht) hes hrest
    rwa [Nat.add_assoc, ← List.countP_append] at hnext

/-- **A new session goes to a least loaded worker exactly where a worker has none or fewer than
`maxClientCount`, or worker 0 is one**, after every run of sessions that come and go; and while they
only come, the workers stay level exactly up to one session more than everybody's share. -/
theorem leastLoaded_iff (hn : 1 ≤ n) (hr : (workerLoads maxClientCount).run (.start n) es = some s) :
    (IsLeast s.numOfSessionInWorkerThread
        (getMinimumSessionThreadId maxClientCount s.numOfSessionInWorkerThread) ↔
      (∃ c ∈ s.numOfSessionInWorkerThread, c = 0 ∨ c < maxClientCount) ∨
        IsLeast s.numOfSessionInWorkerThread 0) ∧
    ((∀ e ∈ es, e.releases = false) →
      (Level s.numOfSessionInWorkerThread ↔
        n = 1 ∨ es.countP LoadEvent.accepts ≤ n * share maxClientCount + 1)) := by
  refine ⟨isLeast_getMinimum_iff, fun hreleases => ?_⟩
  have hfilled : FilledTo maxClientCount n (0 + es.countP LoadEvent.accepts) s :=
    filledTo_start.run hn hreleases hr
  rw [hfilled.spread.level_iff hfilled.length hn, hfilled.sum, Nat.zero_add]

/-- Two workers, up to three clients: a release leaves worker 1 the least loaded. -/
theorem leastLoaded_two : ∃ s, (workerLoads 3).run (.start 2)
      [.makeNewSession true, .makeNewSession true, .makeNewSession true, .releaseSession 1] =
        some s ∧
    s.numOfSessionInWorkerThread = [2, 0] ∧ IsLeast s.numOfSessionInWorkerThread
      (getMinimumSessionThreadId 3 s.numOfSessionInWorkerThread) := by
  have hr : (workerLoads 3).run (.start 2) [.makeNewSession true, .makeNewSession true,
      .makeNewSession true, .releaseSession 1] = some ⟨[2, 0], [0, 0]⟩ := by decide
  exact ⟨_, hr, rfl, (leastLoaded_iff (by decide) hr).1.mpr (by decide)⟩

/-- **Two workers, one client at most**: the third session goes to worker 0, and so does the
fourth. -/
theorem not_leastLoaded_two : ∃ s, (workerLoads 1).run (.start 2)
      [.makeNewSession true, .makeNewSession true, .makeNewSession true] = some s ∧
    s.numOfSessionInWorkerThread = [2, 1] ∧
    ¬ IsLeast s.numOfSessionInWorkerThread
      (getMinimumSessionThreadId 1 s.numOfSessionInWorkerThread) ∧
    ∃ s', (workerLoads 1).step s (.makeNewSession true) = some s' ∧
      s'.numOfSessionInWorkerThread = [3, 1] ∧ ¬ Level s'.numOfSessionInWorkerThread := by
  refine ⟨⟨[2, 1], [0, 1, 0]⟩, by decide, rfl, by decide, ⟨[3, 1], [0, 1, 0, 0]⟩, by decide, rfl,
    by decide⟩

end RIOServer

end DdingGameServer
