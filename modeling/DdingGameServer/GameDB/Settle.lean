import DdingGameServer.GameDB.Registry
/-!
# DBJobManager — settling a batch

DBServer answers a batch with a `DBJobReply`, and `AssemblePacket` calls `OnCommit` or
`OnRollback` of the batch it finds under the reply's key. Nothing takes the batch out of the map
then: `DeregisterDBJob` is called by the destructor of a batch only, and the map itself keeps a
registered batch alive. So a second reply with the key settles the batch again, and that is the
only way it happens.
-/

namespace DdingGameServer

namespace GameDB

/-- The manager, and what the replies made of the batches. -/
structure ServerState where
  manager : DBJobManager
  /-- History: the calls of `OnCommit` and `OnRollback`, each with its batch. -/
  settlements : List (ℕ × Settlement)
  /-- History: the keys that are registered and were in a reply since. -/
  answered : List DBJobKey

inductive ServerEvent
  /-- A step of `MakeBatchedDBJob`, or of a destructor. -/
  | manager (e : ManagerEvent)
  | assemblePacket (packet : DBJobReply)
  deriving DecidableEq, Repr

namespace ServerState

/-- What becomes of the answered keys in a step of the manager. -/
def answeredAfter (answered : List DBJobKey) : ManagerEvent → List DBJobKey
  | .deregisterDBJob key => answered.filter (· ≠ key)
  | _ => answered

def step (s : ServerState) : ServerEvent → Option ServerState
  | .manager e =>
    (s.manager.step e).map fun manager =>
      { s with manager, answered := answeredAfter s.answered e }
  | .assemblePacket packet =>
    -- `GetRegistedDBJob` waits for `jobMapLock`.
    if s.manager.locked then none
    else
      match assemblePacket s.manager packet with
      | none => some s
      | some settlement =>
        some { s with
          settlements := s.settlements ++ [settlement]
          answered := packet.jobKey :: s.answered }

/-- The server before the first call. -/
def start : ServerState := ⟨.start, [], []⟩

/-- The batches that were settled, once for each call. -/
def settled (s : ServerState) : List ℕ := s.settlements.map Prod.fst

end ServerState

/-- The game server, as far as it makes and settles batches. -/
def serverSystem : System ServerState ServerEvent where
  Init s := s = .start
  step := ServerState.step

/-! ## What is asked of the replies -/

/-- **Each batch was settled at most once**: one call in total of `OnCommit` or `OnRollback`. -/
def SettledOnce (s : ServerState) : Prop := ∀ b, s.settled.count b ≤ 1

/-- A reply does not repeat the key of an earlier one while that key is registered. -/
def AnswersOnce (s : ServerState) : ServerEvent → Prop
  | .assemblePacket packet => packet.jobKey ∉ s.answered
  | .manager _ => True

instance (s : ServerState) (event : ServerEvent) : Decidable (AnswersOnce s event) :=
  match event with
  | .assemblePacket packet => inferInstanceAs (Decidable (packet.jobKey ∉ s.answered))
  | .manager _ => inferInstanceAs (Decidable True)

variable {m m' : DBJobManager} {e : ManagerEvent} {s s' : ServerState} {event : ServerEvent}
  {es : List ServerEvent} {key : DBJobKey} {b : ℕ} {packet : DBJobReply}

/-! ## One key, one batch -/

/-- The call that made the batch has returned. -/
def Returned (m : DBJobManager) (b : ℕ) : Prop :=
  ∃ batch : RegisteredJob, m.batches[b]? = some batch ∧ batch.progress = .returned

/-- A returned batch stays one. -/
theorem Returned.step (hb : Returned m b) (h : m.step e = some m') : Returned m' b := by
  obtain ⟨batch, hget, hreturned⟩ := hb
  cases advances h with
  | construct =>
    have hlt := (List.getElem?_eq_some_iff.mp hget).1
    exact ⟨batch, by rwa [List.getElem?_append_left hlt], hreturned⟩
  | @lockAndDraw b' batch' hb' hconstructed =>
    refine ⟨batch, registered_set hb' ?_ hget hreturned, hreturned⟩
    rw [hconstructed]
    exact nofun
  | @insert b' batch' key hb' hkey =>
    refine ⟨batch, registered_set hb' ?_ hget hreturned, hreturned⟩
    rw [hkey]
    exact nofun
  | @deregisterDBJob key =>
    exact ⟨DBJobManager.noteDeregistered key batch, by simp [hget], by simpa using hreturned⟩

/-- **The map knows a batch under one key.** -/
structure Filed (m : DBJobManager) : Prop where
  returned : ∀ key b, m.jobMap.find key = some b → Returned m b
  unique : ∀ key key' b, m.jobMap.find key = some b → m.jobMap.find key' = some b → key = key'

/-- A batch that is being registered is not in the map yet. -/
theorem Filed.ne_of_registering (hm : Filed m) {key' : DBJobKey} {b' : ℕ} {batch : RegisteredJob}
    (hb : m.batches[b]? = some batch) (hkey : batch.progress = .registering key)
    (hfind : m.jobMap.find key' = some b') : b' ≠ b := by
  rintro rfl
  obtain ⟨old, hold, hreturned⟩ := hm.returned key' b' hfind
  obtain rfl := Option.some.inj (hb.symm.trans hold)
  rw [hkey] at hreturned
  exact nomatch hreturned

theorem Filed.step (hm : Filed m) (h : m.step e = some m') : Filed m' := by
  have hkeep : ∀ key b, m.jobMap.find key = some b → Returned m' b :=
    fun key b hfind => (hm.returned key b hfind).step h
  cases advances h with
  | construct => exact ⟨hkeep, hm.unique⟩
  | lockAndDraw => exact ⟨hkeep, hm.unique⟩
  | @insert b batch key hb hkey =>
    refine ⟨fun key' b' hfind => ?_, fun k k' b' hfind hfind' => ?_⟩
    · rcases KeyMap.find_insert_eq_some.mp hfind with hfind | ⟨-, -, rfl⟩
      · exact hkeep key' b' hfind
      · exact ⟨_, List.getElem?_set_self (List.getElem?_eq_some_iff.mp hb).1, rfl⟩
    · rcases KeyMap.find_insert_eq_some.mp hfind with hold | ⟨hk, -, hbb⟩
      · have hne := hm.ne_of_registering hb hkey hold
        rcases KeyMap.find_insert_eq_some.mp hfind' with hold' | ⟨-, -, hbb⟩
        · exact hm.unique k k' b' hold hold'
        · exact absurd hbb.symm hne
      · rcases KeyMap.find_insert_eq_some.mp hfind' with hold' | ⟨hk', -, -⟩
        · exact absurd hbb.symm (hm.ne_of_registering hb hkey hold')
        · exact hk.trans hk'.symm
  | deregisterDBJob =>
    exact ⟨fun key b hfind => hkeep key b (KeyMap.find_of_find_erase hfind),
      fun k k' b hfind hfind' => hm.unique k k' b (KeyMap.find_of_find_erase hfind)
        (KeyMap.find_of_find_erase hfind')⟩

/-! ## Replies -/

/-- A reply settles the batch its key finds. -/
theorem assemblePacket_fst (m : DBJobManager) (packet : DBJobReply) :
    (assemblePacket m packet).map Prod.fst = m.jobMap.find packet.jobKey := by
  unfold assemblePacket DBJobManager.getRegistedDBJob
  cases m.jobMap.find packet.jobKey with
  | none => rfl
  | some b =>
    dsimp only
    split <;> rfl

/-- **What a step does to the settled batches**: a reply adds the batch its key finds, nothing else
adds any. -/
theorem step_cases (h : s.step event = some s') :
    (∃ e, event = .manager e ∧ s.manager.step e = some s'.manager ∧ s'.settled = s.settled ∧
        s'.answered = ServerState.answeredAfter s.answered e) ∨
      (∃ packet, event = .assemblePacket packet ∧ s.manager.jobMap.find packet.jobKey = none ∧
        s' = s) ∨
      (∃ packet b, event = .assemblePacket packet ∧
        s.manager.jobMap.find packet.jobKey = some b ∧ s'.manager = s.manager ∧
        s'.settled = s.settled ++ [b] ∧ s'.answered = packet.jobKey :: s.answered) := by
  cases event with
  | manager e =>
    obtain ⟨m, hm, rfl⟩ := Option.map_eq_some_iff.mp h
    exact .inl ⟨e, rfl, hm, rfl, rfl⟩
  | assemblePacket packet =>
    have hfst := assemblePacket_fst s.manager packet
    simp only [ServerState.step] at h
    split at h
    · exact nomatch h
    · split at h
      · rename_i hnone
        rw [hnone] at hfst
        exact .inr (.inl ⟨packet, rfl, hfst.symm, (Option.some.inj h).symm⟩)
      · rename_i settlement hsome
        rw [hsome] at hfst
        obtain rfl := Option.some.inj h
        exact .inr (.inr ⟨packet, settlement.1, rfl, hfst.symm, rfl, by
          simp [ServerState.settled], rfl⟩)

/-- What holds in every run: an answered key is registered and its batch settled, and only returned
batches are settled. -/
structure Replied (s : ServerState) : Prop where
  filed : Filed s.manager
  answered : ∀ key ∈ s.answered, ∃ b, s.manager.jobMap.find key = some b ∧ b ∈ s.settled
  returned : ∀ b ∈ s.settled, Returned s.manager b

/-- What holds besides where no reply repeats a key. -/
structure RepliedOnce (s : ServerState) : Prop where
  fresh : ∀ key b, s.manager.jobMap.find key = some b → key ∉ s.answered → b ∉ s.settled
  once : SettledOnce s

theorem Replied.step (hs : Replied s) (h : s.step event = some s') : Replied s' := by
  rcases step_cases h with ⟨e, rfl, hm, hsettled, hanswered⟩ | ⟨packet, rfl, -, rfl⟩ |
    ⟨packet, b, rfl, hfind, hm, hsettled, hanswered⟩
  · refine ⟨hs.filed.step hm, fun key hkey => ?_, fun b hb => ?_⟩
    · rw [hanswered] at hkey
      rw [hsettled]
      generalize s'.manager = m' at hm ⊢
      cases advances hm with
      | construct => exact hs.answered key hkey
      | lockAndDraw => exact hs.answered key hkey
      | insert =>
        obtain ⟨b, hfind, hb⟩ := hs.answered key hkey
        exact ⟨b, KeyMap.find_insert_eq_some.mpr (.inl hfind), hb⟩
      | deregisterDBJob =>
        obtain ⟨hkey, hne⟩ := List.mem_filter.mp hkey
        obtain ⟨b, hfind, hb⟩ := hs.answered key hkey
        refine ⟨b, ?_, hb⟩
        rw [KeyMap.find_erase_of_ne (by simpa using hne)]
        exact hfind
    · rw [hsettled] at hb
      exact (hs.returned b hb).step hm
  · exact hs
  · refine ⟨hm ▸ hs.filed, fun key hkey => ?_, fun b' hb' => ?_⟩
    · rw [hanswered] at hkey
      rw [hm, hsettled]
      rcases List.mem_cons.mp hkey with rfl | hkey
      · exact ⟨b, hfind, by simp⟩
      · obtain ⟨b', hfind', hb'⟩ := hs.answered key hkey
        exact ⟨b', hfind', List.mem_append_left _ hb'⟩
    · rw [hsettled] at hb'
      rw [hm]
      rcases List.mem_append.mp hb' with hb' | hb'
      · exact hs.returned b' hb'
      · obtain rfl := List.mem_singleton.mp hb'
        exact hs.filed.returned packet.jobKey b' hfind

/-- **A reply that repeats no key settles a batch for the first time.** -/
theorem RepliedOnce.step (hs : RepliedOnce s) (hreplied : Replied s) (hc : AnswersOnce s event)
    (h : s.step event = some s') : RepliedOnce s' := by
  rcases step_cases h with ⟨e, rfl, hm, hsettled, hanswered⟩ | ⟨packet, rfl, -, rfl⟩ |
    ⟨packet, b, rfl, hfind, hm, hsettled, hanswered⟩
  · refine ⟨fun key b hfind hkey => ?_, fun b => hsettled ▸ hs.once b⟩
    rw [hanswered] at hkey
    rw [hsettled]
    generalize s'.manager = m' at hm hfind
    cases advances hm with
    | construct => exact hs.fresh key b hfind hkey
    | lockAndDraw => exact hs.fresh key b hfind hkey
    | @insert b' batch key' hb' hkey' =>
      rcases KeyMap.find_insert_eq_some.mp hfind with hfind | ⟨-, -, rfl⟩
      · exact hs.fresh key b hfind hkey
      · -- The batch just registered was not returned, so no reply has settled it.
        intro hmem
        obtain ⟨old, hold, hreturned⟩ := hreplied.returned _ hmem
        obtain rfl := Option.some.inj (hb'.symm.trans hold)
        rw [hkey'] at hreturned
        exact nomatch hreturned
    | @deregisterDBJob key' =>
      by_cases hne : key = key'
      · subst hne
        rw [KeyMap.find_erase_self] at hfind
        exact nomatch hfind
      · rw [KeyMap.find_erase_of_ne hne] at hfind
        refine hs.fresh key b hfind fun hmem => hkey ?_
        exact List.mem_filter.mpr ⟨hmem, by simpa using hne⟩
  · exact hs
  · have hnew : b ∉ s.settled := hs.fresh packet.jobKey b hfind hc
    refine ⟨fun key b' hfind' hkey => ?_, fun b' => ?_⟩
    · rw [hanswered] at hkey
      rw [hm] at hfind'
      obtain ⟨hne, hkey⟩ := not_or.mp (fun h => hkey (List.mem_cons.mpr h))
      rw [hsettled, List.mem_append, List.mem_singleton, not_or]
      refine ⟨hs.fresh key b' hfind' hkey, ?_⟩
      rintro rfl
      exact hne (hreplied.filed.unique key packet.jobKey b' hfind' hfind)
    · rw [hsettled, List.count_append]
      by_cases hbb : b' = b
      · subst hbb
        rw [List.count_eq_zero_of_not_mem hnew]
        simp
      · have hone := hs.once b'
        rw [List.count_singleton]
        simp only [beq_iff_eq, Ne.symm hbb, if_false]
        omega

/-- **A reply that repeats a key settles its batch again.** -/
theorem answersOnce_of_settledOnce (hs : Replied s) (h : s.step event = some s')
    (hs' : SettledOnce s') : AnswersOnce s event := by
  rcases step_cases h with ⟨e, rfl, -⟩ | ⟨packet, rfl, hnone, -⟩ |
    ⟨packet, b, rfl, hfind, -, hsettled, -⟩
  · exact trivial
  · intro hmem
    obtain ⟨b, hfind, -⟩ := hs.answered packet.jobKey hmem
    rw [hnone] at hfind
    exact nomatch hfind
  · intro hmem
    obtain ⟨b', hfind', hb'⟩ := hs.answered packet.jobKey hmem
    obtain rfl := Option.some.inj (hfind.symm.trans hfind')
    have hpos := List.count_pos_iff.mpr hb'
    have honce := hs' b
    rw [hsettled, List.count_append, List.count_singleton_self] at honce
    omega

/-! ## Over a run -/

theorem replied_start : Replied ServerState.start :=
  ⟨⟨fun _ _ h => (nomatch h), fun _ _ _ h => (nomatch h)⟩, fun _ h => (nomatch h),
    fun _ h => (nomatch h)⟩

theorem replied_of_run (hr : serverSystem.run .start es = some s) : Replied s :=
  System.Meets.invariant (P := Replied) (fun _ _ _ hs _ h => hs.step h) System.meets_true hr
    replied_start

theorem settledOnce_of_meets (hc : serverSystem.Meets AnswersOnce .start es)
    (hr : serverSystem.run .start es = some s) : SettledOnce s := by
  have h := hc.invariant (P := fun s => Replied s ∧ RepliedOnce s)
    (fun _ _ _ hs hc h => ⟨hs.1.step h, hs.2.step hs.1 hc h⟩) hr
    ⟨replied_start, fun _ _ h => (nomatch h), fun b => by simp [ServerState.start,
      ServerState.settled]⟩
  exact h.2.once

/-- **Each batch is settled at most once all along a run exactly if no reply of it repeats a key
that is registered and was answered before.** -/
theorem settledOnce_iff_answersOnce (hr : serverSystem.run .start es = some s) :
    (∀ es₁ s₁, es₁ <+: es → serverSystem.run .start es₁ = some s₁ → SettledOnce s₁) ↔
      serverSystem.Meets AnswersOnce .start es := by
  constructor
  · intro honce
    by_contra hnot
    obtain ⟨es₁, e, es₂, t, u, rfl, hrt, -, hunmet, hstep, -⟩ := System.exists_first_unmet hnot hr
    have hru : serverSystem.run .start (es₁ ++ [e]) = some u :=
      System.run_append_eq_some.mpr ⟨t, hrt, System.run_cons_eq_some.mpr ⟨u, hstep, rfl⟩⟩
    have hpre : es₁ ++ [e] <+: es₁ ++ e :: es₂ := ⟨es₂, by simp⟩
    exact hunmet (answersOnce_of_settledOnce (replied_of_run hrt) hstep (honce _ u hpre hru))
  · rintro hc es₁ s₁ ⟨es₂, rfl⟩ hr₁
    exact settledOnce_of_meets hc.left_of_append hr₁

/-- A batch that is made and registered under key 2. -/
def oneBatch : List ServerEvent := oneCall.map .manager

/-- One reply with its key commits it once. -/
theorem settledOnce_oneReply : ∃ s,
    serverSystem.run .start (oneBatch ++ [.assemblePacket ⟨2, true⟩]) = some s ∧
      s.settlements = [(0, .onCommit)] ∧ SettledOnce s := by
  obtain ⟨s, hmeets, hr, hf⟩ := serverSystem.exists_run
    (oneBatch ++ [.assemblePacket ⟨2, true⟩]) (s := ServerState.start)
    (c := fun s event => decide (AnswersOnce s event))
    (f := fun s => decide (s.settlements = [(0, .onCommit)])) (by decide +kernel)
  simp only [decide_eq_true_eq] at hmeets hf
  exact ⟨s, hr, hf, (settledOnce_iff_answersOnce hr).mpr hmeets _ s (List.prefix_refl _) hr⟩

/-- **A reply that comes twice**, once with the other outcome, commits the batch and rolls it
back. -/
theorem not_settledOnce_twoReplies : ∃ s,
    serverSystem.run .start
        (oneBatch ++ [.assemblePacket ⟨2, true⟩, .assemblePacket ⟨2, false⟩]) = some s ∧
      s.settlements = [(0, .onCommit), (0, .onRollback)] ∧ ¬ SettledOnce s := by
  obtain ⟨s, -, hr, hf⟩ := serverSystem.exists_run
    (oneBatch ++ [.assemblePacket ⟨2, true⟩, .assemblePacket ⟨2, false⟩])
    (s := ServerState.start) (c := fun _ _ => true)
    (f := fun s => decide (s.settlements = [(0, .onCommit), (0, .onRollback)]))
    (by decide +kernel)
  have hsettled := of_decide_eq_true hf
  refine ⟨s, hr, hsettled, fun honce => ?_⟩
  have htwo := honce 0
  rw [ServerState.settled, hsettled] at htwo
  exact absurd htwo (by decide)

end GameDB

end DdingGameServer
