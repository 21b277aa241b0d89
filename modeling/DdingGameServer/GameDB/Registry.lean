import DdingGameServer.GameDB.Manager
/-!
# DBJobManager — looking a batch up by its own key

A batch keeps the key its constructor drew, and the map keeps the one `RegisterDBJob` drew. The two
draws are different steps of one counter, so a batch is found under its own key only if the counter
came round in between; until then no reply ever finds the batch it is about.
-/

namespace DdingGameServer

namespace GameDB

variable {m m' : DBJobManager} {e : ManagerEvent} {es es₁ : List ManagerEvent} {b n n' : ℕ}
  {batch : RegisteredJob} {own key : DBJobKey}

/-! ## What is asked of the registry -/

/-- **The registry is keyed by the batches' own keys**: a batch that was returned and not
deregistered is found, and a reply with its key settles it. -/
def Keyed (m : DBJobManager) : Prop :=
  ∀ b batch, m.batches[b]? = some batch → batch.progress = .returned → batch.deregistered = false →
    m.getRegistedDBJob batch.dbJobKey = some b ∧
      assemblePacket m ⟨batch.dbJobKey, true⟩ = some (b, .onCommit) ∧
      assemblePacket m ⟨batch.dbJobKey, false⟩ = some (b, .onRollback)

/-- A registration enters the batch under its own key, which is free. -/
def RegistersOwnKey (m : DBJobManager) : ManagerEvent → Prop
  | .insert b => ∃ batch, m.batches[b]? = some batch ∧
      batch.progress = .registering batch.dbJobKey ∧ m.jobMap.find batch.dbJobKey = none
  | _ => True

/-- Finding is all it takes. -/
theorem keyed_of_find (h : ∀ b batch, m.batches[b]? = some batch → batch.progress = .returned →
    batch.deregistered = false → m.jobMap.find batch.dbJobKey = some b) : Keyed m := by
  intro b batch hb hreturned hreg
  have hfind : m.getRegistedDBJob batch.dbJobKey = some b := h b batch hb hreturned hreg
  simp [assemblePacket, hfind]

/-! ## Where the keys come from -/

/-- `own` was drawn before `key`, and both before the counter stood at `n`. -/
def DrawnBefore (n : ℕ) (own key : DBJobKey) : Prop :=
  ∃ i j, i < j ∧ j < n ∧ own = UInt64.ofNat i ∧ key = UInt64.ofNat j

theorem DrawnBefore.mono (h : DrawnBefore n own key) (hle : n ≤ n') : DrawnBefore n' own key := by
  obtain ⟨i, j, hij, hj, hown, hkey⟩ := h
  exact ⟨i, j, hij, by omega, hown, hkey⟩

/-- **Two draws differ until the counter comes round.** -/
theorem DrawnBefore.ne (h : DrawnBefore n own key) (hn : n ≤ 2 ^ 64) : own ≠ key := by
  obtain ⟨i, j, hij, hj, rfl, rfl⟩ := h
  intro heq
  have hnat := congrArg UInt64.toNat heq
  rw [UInt64.toNat_ofNat', UInt64.toNat_ofNat', Nat.mod_eq_of_lt (by omega),
    Nat.mod_eq_of_lt (by omega)] at hnat
  omega

/-- What is known of a batch while the counter stands at `n`. -/
structure BatchBooked (n : ℕ) (batch : RegisteredJob) : Prop where
  own : ∃ i < n, batch.dbJobKey = UInt64.ofNat i
  registering : ∀ key, batch.progress = .registering key → DrawnBefore n batch.dbJobKey key
  deregistered : batch.deregistered = true → batch.progress = .returned

/-- **The books of the registry.** Only returned batches are in the map, each under a key drawn
after its own. -/
structure Booked (m : DBJobManager) : Prop where
  batches : ∀ batch ∈ m.batches, BatchBooked m.jobKey batch
  registered : ∀ key b, m.jobMap.find key = some b →
    ∃ batch : RegisteredJob, m.batches[b]? = some batch ∧ batch.progress = .returned ∧
      DrawnBefore m.jobKey batch.dbJobKey key

theorem BatchBooked.mono (h : BatchBooked n batch) (hle : n ≤ n') : BatchBooked n' batch := by
  obtain ⟨i, hi, hown⟩ := h.own
  exact ⟨⟨i, by omega, hown⟩, fun key hkey => (h.registering key hkey).mono hle, h.deregistered⟩

theorem booked_start : Booked DBJobManager.start :=
  ⟨fun _ hbatch => (nomatch hbatch), fun _ _ hfind => (nomatch hfind)⟩

/-- A registered batch stays registered when a batch that was not returned is replaced. -/
theorem registered_set {batch' : RegisteredJob} (hb : m.batches[b]? = some batch)
    (hnot : batch.progress ≠ .returned) {b' : ℕ} {old : RegisteredJob}
    (hold : m.batches[b']? = some old) (hreturned : old.progress = .returned) :
    (m.batches.set b batch')[b']? = some old := by
  have hne : b ≠ b' := by
    rintro rfl
    obtain rfl : batch = old := by rw [hb] at hold; exact Option.some.inj hold
    exact hnot hreturned
  rwa [List.getElem?_set_ne hne]

@[simp] theorem noteDeregistered_dbJobKey :
    (DBJobManager.noteDeregistered key batch).dbJobKey = batch.dbJobKey := by
  unfold DBJobManager.noteDeregistered
  split <;> rfl

@[simp] theorem noteDeregistered_progress :
    (DBJobManager.noteDeregistered key batch).progress = batch.progress := by
  unfold DBJobManager.noteDeregistered
  split <;> rfl

/-- **Every step keeps the books.** -/
theorem Booked.step (hm : Booked m) (h : m.step e = some m') : Booked m' := by
  cases advances h with
  | construct =>
    refine ⟨fun batch hbatch => ?_, fun key b hfind => ?_⟩
    · rcases List.mem_append.mp hbatch with hbatch | hbatch
      · exact (hm.batches batch hbatch).mono (Nat.le_succ _)
      · obtain rfl := List.mem_singleton.mp hbatch
        exact ⟨⟨m.jobKey, Nat.lt_succ_self _, rfl⟩, fun _ hkey => (nomatch hkey),
          fun hderegistered => (nomatch hderegistered)⟩
    · obtain ⟨batch, hb, hreturned, hdrawn⟩ := hm.registered key b hfind
      have hlt := (List.getElem?_eq_some_iff.mp hb).1
      exact ⟨batch, by rwa [List.getElem?_append_left hlt], hreturned,
        hdrawn.mono (Nat.le_succ _)⟩
  | @lockAndDraw b batch hb hconstructed =>
    have hbooked := hm.batches batch (List.mem_of_getElem? hb)
    obtain ⟨i, hi, hown⟩ := hbooked.own
    refine ⟨fun batch' hbatch' => ?_, fun key b' hfind => ?_⟩
    · rcases List.mem_or_eq_of_mem_set hbatch' with hbatch' | rfl
      · exact (hm.batches batch' hbatch').mono (Nat.le_succ _)
      · -- The key of the registration is drawn now, its own was drawn before.
        refine ⟨⟨i, Nat.lt_succ_of_lt hi, hown⟩, fun key hkey => ?_, fun hderegistered => ?_⟩
        · obtain rfl := Progress.registering.inj hkey
          exact ⟨i, m.jobKey, hi, Nat.lt_succ_self _, hown, rfl⟩
        · have hreturned := hbooked.deregistered hderegistered
          rw [hconstructed] at hreturned
          exact nomatch hreturned
    · obtain ⟨old, hold, hreturned, hdrawn⟩ := hm.registered key b' hfind
      have hnot : batch.progress ≠ .returned := by rw [hconstructed]; exact fun h => nomatch h
      exact ⟨old, registered_set hb hnot hold hreturned, hreturned, hdrawn.mono (Nat.le_succ _)⟩
  | @insert b batch key hb hkey =>
    have hbooked := hm.batches batch (List.mem_of_getElem? hb)
    refine ⟨fun batch' hbatch' => ?_, fun key' b' hfind => ?_⟩
    · rcases List.mem_or_eq_of_mem_set hbatch' with hbatch' | rfl
      · exact hm.batches batch' hbatch'
      · exact ⟨hbooked.own, fun _ hkey' => (nomatch hkey'), fun _ => rfl⟩
    · rcases KeyMap.find_insert_eq_some.mp hfind with hfind | ⟨rfl, -, rfl⟩
      · obtain ⟨old, hold, hreturned, hdrawn⟩ := hm.registered key' b' hfind
        have hnot : batch.progress ≠ .returned := by rw [hkey]; exact fun h => nomatch h
        exact ⟨old, registered_set hb hnot hold hreturned, hreturned, hdrawn⟩
      · exact ⟨_, List.getElem?_set_self (List.getElem?_eq_some_iff.mp hb).1, rfl,
          hbooked.registering key' hkey⟩
  | @deregisterDBJob key =>
    refine ⟨fun batch hbatch => ?_, fun key' b hfind => ?_⟩
    · obtain ⟨old, hold, rfl⟩ := List.mem_map.mp hbatch
      have hbooked := hm.batches old hold
      refine ⟨by simpa using hbooked.own, by simpa using hbooked.registering, ?_⟩
      rw [noteDeregistered_progress]
      intro hderegistered
      unfold DBJobManager.noteDeregistered at hderegistered
      split at hderegistered
      · rename_i hreturned
        exact hreturned.1
      · exact hbooked.deregistered hderegistered
    · obtain ⟨old, hold, hreturned, hdrawn⟩ :=
        hm.registered key' b (KeyMap.find_of_find_erase hfind)
      exact ⟨DBJobManager.noteDeregistered key old, by simp [hold], by simpa using hreturned,
        by simpa using hdrawn⟩

theorem booked_of_run (hr : managerSystem.run DBJobManager.start es = some m) : Booked m :=
  System.Meets.invariant (P := Booked) (fun _ _ _ hm _ h => hm.step h) System.meets_true hr
    booked_start

/-- **Before the counter comes round no batch is found under its own key.** -/
theorem Booked.find_ne (hm : Booked m) (hn : m.jobKey ≤ 2 ^ 64) (hb : m.batches[b]? = some batch) :
    m.jobMap.find batch.dbJobKey ≠ some b := by
  intro hfind
  obtain ⟨batch', hb', -, hdrawn⟩ := hm.registered _ b hfind
  obtain rfl : batch = batch' := by rw [hb] at hb'; exact Option.some.inj hb'
  exact hdrawn.ne hn rfl

/-! ## When the registry is keyed -/

/-- **A registration under the own key keeps the registry keyed**, and so does every other step. -/
theorem Keyed.step (hm : Keyed m) (hc : RegistersOwnKey m e) (h : m.step e = some m') :
    Keyed m' := by
  refine keyed_of_find fun b' batch' hb' hreturned' hreg' => ?_
  cases advances h with
  | construct =>
    rw [List.getElem?_append] at hb'
    split at hb'
    · exact (hm b' batch' hb' hreturned' hreg').1
    · -- The new batch was not returned.
      have hmem := List.mem_of_getElem? hb'
      obtain rfl := List.mem_singleton.mp hmem
      exact nomatch hreturned'
  | @lockAndDraw b batch hb hconstructed =>
    by_cases hbb : b = b'
    · subst hbb
      rw [List.getElem?_set_self (List.getElem?_eq_some_iff.mp hb).1] at hb'
      obtain rfl := Option.some.inj hb'
      exact nomatch hreturned'
    · rw [List.getElem?_set_ne hbb] at hb'
      exact (hm b' batch' hb' hreturned' hreg').1
  | @insert b batch key hb hkey =>
    obtain ⟨_, hb'', hown, hfree⟩ := hc
    obtain rfl := Option.some.inj (hb.symm.trans hb'')
    obtain rfl := Progress.registering.inj (hkey.symm.trans hown)
    refine KeyMap.find_insert_eq_some.mpr ?_
    by_cases hbb : b = b'
    · subst hbb
      rw [List.getElem?_set_self (List.getElem?_eq_some_iff.mp hb).1] at hb'
      obtain rfl := Option.some.inj hb'
      exact .inr ⟨rfl, hfree, rfl⟩
    · rw [List.getElem?_set_ne hbb] at hb'
      exact .inl (hm b' batch' hb' hreturned' hreg').1
  | @deregisterDBJob key =>
    rw [List.getElem?_map, Option.map_eq_some_iff] at hb'
    obtain ⟨batch, hb, rfl⟩ := hb'
    rw [noteDeregistered_progress] at hreturned'
    -- A batch that is still not deregistered has another key.
    have hkey : batch.dbJobKey ≠ key := by
      intro hkey
      simp [DBJobManager.noteDeregistered, hreturned', hkey] at hreg'
    have hold : batch.deregistered = false := by
      simpa [DBJobManager.noteDeregistered, hkey] using hreg'
    rw [noteDeregistered_dbJobKey, KeyMap.find_erase_of_ne hkey]
    exact (hm b' batch hb hreturned' hold).1

/-- **A step that leaves the registry keyed** registers under the own key, if it registers. -/
theorem registersOwnKey_of_keyed (hm : Booked m) (h : m.step e = some m') (hm' : Keyed m') :
    RegistersOwnKey m e := by
  cases advances h with
  | construct => exact trivial
  | lockAndDraw => exact trivial
  | deregisterDBJob => exact trivial
  | @insert b batch key hb hkey =>
    have hbooked := hm.batches batch (List.mem_of_getElem? hb)
    have hreg : batch.deregistered = false := by
      cases hd : batch.deregistered with
      | false => rfl
      | true =>
        have hreturned := hbooked.deregistered hd
        rw [hkey] at hreturned
        exact nomatch hreturned
    have hfind : (m.jobMap.insert key b).find batch.dbJobKey = some b :=
      (hm' b _ (List.getElem?_set_self (List.getElem?_eq_some_iff.mp hb).1) rfl hreg).1
    rcases KeyMap.find_insert_eq_some.mp hfind with hfind | ⟨rfl, hfree, -⟩
    · -- It was not in the map before: what is in the map has been returned.
      obtain ⟨batch', hb', hreturned, -⟩ := hm.registered _ b hfind
      obtain rfl := Option.some.inj (hb.symm.trans hb')
      rw [hkey] at hreturned
      exact nomatch hreturned
    · exact ⟨batch, hb, hkey, hfree⟩

/-- The registry is keyed all along a run that registers under own keys. -/
theorem keyed_of_meets (hc : managerSystem.Meets RegistersOwnKey DBJobManager.start es)
    (hr : managerSystem.run DBJobManager.start es = some m) : Keyed m :=
  hc.invariant (fun _ _ _ hm hc h => hm.step hc h) hr fun _ _ hb => by
    simp [DBJobManager.start] at hb

/-- **The registry is keyed in every state of a run exactly if every registration enters the batch
under its own key**, which does not happen before the counter has come round: until then no batch is
found under its own key. -/
theorem keyed_iff_registersOwnKey (hr : managerSystem.run DBJobManager.start es = some m) :
    ((∀ es₁ m₁, es₁ <+: es → managerSystem.run DBJobManager.start es₁ = some m₁ → Keyed m₁) ↔
        managerSystem.Meets RegistersOwnKey DBJobManager.start es) ∧
      (m.jobKey ≤ 2 ^ 64 → ∀ b batch, m.batches[b]? = some batch →
        m.getRegistedDBJob batch.dbJobKey ≠ some b) := by
  refine ⟨⟨fun hkeyed => ?_, fun hc es₁ m₁ hpre hr₁ => ?_⟩, fun hn b batch hb => ?_⟩
  · by_contra hnot
    obtain ⟨es₁, e, es₂, t, u, rfl, hrt, -, hunmet, hstep, -⟩ := System.exists_first_unmet hnot hr
    have hru : managerSystem.run DBJobManager.start (es₁ ++ [e]) = some u :=
      System.run_append_eq_some.mpr ⟨t, hrt, System.run_cons_eq_some.mpr ⟨u, hstep, rfl⟩⟩
    have hpre : es₁ ++ [e] <+: es₁ ++ e :: es₂ := ⟨es₂, by simp⟩
    exact hunmet (registersOwnKey_of_keyed (booked_of_run hrt) hstep (hkeyed _ u hpre hru))
  · obtain ⟨es₂, rfl⟩ := hpre
    exact keyed_of_meets hc.left_of_append hr₁
  · exact (booked_of_run hr).find_ne hn hb

/-- One call of `MakeBatchedDBJob`, alone. -/
def oneCall : List ManagerEvent := [.construct, .lockAndDraw 0, .insert 0]

/-- The manager after it: the batch has key 1 and is registered under key 2. -/
def afterOneCall : DBJobManager where
  jobKey := 3
  jobMap := DBJobManager.start.jobMap.insert 2 0
  batches := [{ dbJobKey := 1, progress := .returned, deregistered := false }]

theorem run_oneCall : managerSystem.run DBJobManager.start oneCall = some afterOneCall := rfl

/-- The registry is keyed up to the registration of a single call, and not behind it: there the batch
is not found under its own key. -/
theorem getRegistedDBJob_oneCall :
    (∀ es₁ m₁, es₁ <+: [.construct, .lockAndDraw 0] →
      managerSystem.run DBJobManager.start es₁ = some m₁ → Keyed m₁) ∧
    (¬ ∀ es₁ m₁, es₁ <+: oneCall →
      managerSystem.run DBJobManager.start es₁ = some m₁ → Keyed m₁) ∧
    afterOneCall.getRegistedDBJob 1 ≠ some 0 := by
  have hprefix : managerSystem.run DBJobManager.start [.construct, .lockAndDraw 0] = some _ := rfl
  obtain ⟨hcall, hfind⟩ := keyed_iff_registersOwnKey run_oneCall
  refine ⟨(keyed_iff_registersOwnKey hprefix).1.mpr ?_, fun hkeyed => ?_, hfind (by decide) 0 _ rfl⟩
  · exact ⟨trivial, fun _ _ => ⟨trivial, fun _ _ => trivial⟩⟩
  · obtain ⟨batch, hb, hkey, -⟩ := ((hcall.mp hkeyed).2 _ rfl).2 _ rfl |>.1
    obtain rfl := Option.some.inj hb
    exact absurd hkey (by decide)

/-- **One call is enough**: it returns a batch that its key does not find. -/
theorem not_keyed_oneCall :
    ∃ m, managerSystem.run DBJobManager.start oneCall = some m ∧ ¬ Keyed m := by
  refine ⟨afterOneCall, rfl, fun h => ?_⟩
  have hfind := (h 0 { dbJobKey := 1, progress := .returned, deregistered := false } rfl rfl rfl).1
  exact absurd hfind (by decide)

end GameDB

end DdingGameServer
