import DdingGameServer.Common.KeyMap
import DdingGameServer.Common.System
import DdingGameServer.Common.Tally
import DdingGameServer.GameDB.Protocol
/-!
# BatchedDBJob — who keeps a batch alive

`MakeBatchedDBJob` constructs a batch under a `shared_ptr` and registers it, for which the map of
the manager gets a reference of its own. The batch is destroyed with its last reference, and its
destructor deregisters it, under the key its constructor drew. `RegisterDBJob` has entered it under
a later draw: so the reference of the map is never given back, and nothing `MakeBatchedDBJob` made
is destroyed while the counter has not come round (`kept_of_reachable`).

One event is one atomic step of one of the threads. `RegisterDBJob` draws and inserts under the lock
of the map, and what other threads do to the counter or a reference count meanwhile commutes with
it.
-/

namespace DdingGameServer

namespace GameDB

/-- **A `BatchedDBJob` under its `shared_ptr`s.** Draws from the counter are kept unwrapped. -/
structure SharedBatch where
  /-- What the constructor drew. -/
  draw : ℕ
  useCount : ℕ
  /-- The references outside the map, among those `useCount` counts. -/
  holders : ℕ
  /-- What `RegisterDBJob` drew, where `MakeBatchedDBJob` has returned. -/
  registered : Option ℕ
  destroyed : Bool
  deriving DecidableEq, Repr

namespace SharedBatch

variable (batch : SharedBatch)

/-- `GetDBJobKey`. -/
def dbJobKey : DBJobKey := UInt64.ofNat batch.draw

/-- A reference is copied outside the map, -/
def copied : SharedBatch :=
  { batch with useCount := batch.useCount + 1, holders := batch.holders + 1 }

/-- or given up there. -/
def dropped : SharedBatch :=
  { batch with useCount := batch.useCount - 1, holders := batch.holders - 1 }

/-- The map gives up its own. -/
def erased : SharedBatch := { batch with useCount := batch.useCount - 1 }

end SharedBatch

/-- **The registry and the batches**, which are known by the order of their construction. -/
structure Lifetimes where
  jobKey : ℕ
  jobMap : KeyMap DBJobKey ℕ
  batches : List SharedBatch
  /-- A destructor has to take `jobMapLock` in the thread that holds it. -/
  stuck : Bool

/-- A step of some thread. -/
inductive LifetimeEvent
  /-- `std::make_shared` in `MakeBatchedDBJob`. -/
  | makeShared
  | registerDBJob (b : ℕ)
  | getRegistedDBJob (jobKey : DBJobKey)
  | copy (b : ℕ)
  | drop (b : ℕ)
  /-- `~BatchedDBJob`. -/
  | destroy (b : ℕ)
  deriving DecidableEq, Repr

namespace Lifetimes

variable (m : Lifetimes)

def getRegistedDBJob (jobKey : DBJobKey) : Option ℕ := m.jobMap.find jobKey

/-- The batch at a place is replaced. -/
def put (b : ℕ) (batch : SharedBatch) : Lifetimes := { m with batches := m.batches.set b batch }

def makeShared : Lifetimes :=
  { m with
    jobKey := m.jobKey + 1
    batches := m.batches ++
      [{ draw := m.jobKey, useCount := 1, holders := 1, registered := none, destroyed := false }] }

/-- `RegisterDBJob`: where the key is taken, `insert` takes no reference. -/
def registerDBJob (b : ℕ) (batch : SharedBatch) : Lifetimes :=
  match m.jobMap.find (UInt64.ofNat m.jobKey) with
  | none =>
    { m with
      jobKey := m.jobKey + 1
      jobMap := m.jobMap.assign (UInt64.ofNat m.jobKey) b
      batches := m.batches.set b
        { batch with useCount := batch.useCount + 1, registered := some m.jobKey } }
  | some _ =>
    { m with
      jobKey := m.jobKey + 1
      batches := m.batches.set b { batch with registered := some m.jobKey } }

/-- `DeregisterDBJob`: `erase` gives up the reference of the map. Where it was the last one, the
destructor it runs asks for the lock that is held. -/
def deregisterDBJob (key : DBJobKey) : Lifetimes :=
  match m.jobMap.find key with
  | none => m
  | some b =>
    match m.batches[b]? with
    | none => m
    | some batch =>
      { m with
        jobMap := m.jobMap.erase key
        batches := m.batches.set b batch.erased
        stuck := m.stuck || batch.useCount == 1 }

/-- Nobody copies or drops a reference that is not there; `MakeBatchedDBJob` keeps its own until it
has registered the batch. -/
def step : LifetimeEvent → Option Lifetimes
  | .makeShared => some m.makeShared
  | .registerDBJob b =>
    match m.batches[b]? with
    | some batch =>
      if batch.registered = none ∧ m.stuck = false then some (m.registerDBJob b batch) else none
    | none => none
  | .getRegistedDBJob key =>
    if m.stuck = false then
      match m.jobMap.find key with
      | none => some m
      | some b => (m.batches[b]?).map fun batch => m.put b batch.copied
    else none
  | .copy b =>
    match m.batches[b]? with
    | some batch => if 0 < batch.holders then some (m.put b batch.copied) else none
    | none => none
  | .drop b =>
    match m.batches[b]? with
    | some batch =>
      if 0 < batch.holders ∧ batch.registered ≠ none then some (m.put b batch.dropped) else none
    | none => none
  | .destroy b =>
    match m.batches[b]? with
    | some batch =>
      if batch.useCount = 0 ∧ batch.destroyed = false ∧ m.stuck = false then
        some ((m.put b { batch with destroyed := true }).deregisterDBJob batch.dbJobKey)
      else none
    | none => none

/-- Before the first call. -/
def start : Lifetimes where
  jobKey := 1
  jobMap := .empty
  batches := []
  stuck := false

end Lifetimes

/-- The registry and the batches as a transition system. -/
def lifetimeSystem : System Lifetimes LifetimeEvent where
  Init m := m = Lifetimes.start
  step := Lifetimes.step

variable {m m' : Lifetimes} {e : LifetimeEvent} {b i j : ℕ} {batch : SharedBatch}

/-! ## What a step does -/

/-- **Every step, with what it needs and what it leaves.** -/
inductive LivesOn (m : Lifetimes) : Lifetimes → Prop
  | makeShared : LivesOn m m.makeShared
  | registerDBJob {b : ℕ} {batch : SharedBatch} : m.batches[b]? = some batch →
      batch.registered = none → LivesOn m (m.registerDBJob b batch)
  | notFound : LivesOn m m
  | found {b : ℕ} {batch : SharedBatch} {key : DBJobKey} : m.jobMap.find key = some b →
      m.batches[b]? = some batch → LivesOn m (m.put b batch.copied)
  | copy {b : ℕ} {batch : SharedBatch} : m.batches[b]? = some batch → 0 < batch.holders →
      LivesOn m (m.put b batch.copied)
  | drop {b : ℕ} {batch : SharedBatch} : m.batches[b]? = some batch → 0 < batch.holders →
      batch.registered ≠ none → LivesOn m (m.put b batch.dropped)
  | destroy {b : ℕ} {batch : SharedBatch} : m.batches[b]? = some batch → batch.useCount = 0 →
      LivesOn m ((m.put b { batch with destroyed := true }).deregisterDBJob batch.dbJobKey)

theorem livesOn (h : m.step e = some m') : LivesOn m m' := by
  cases e with
  | makeShared =>
    obtain rfl := Option.some.inj h
    exact .makeShared
  | registerDBJob b =>
    rw [Lifetimes.step] at h
    split at h
    · rename_i batch hb
      split at h
      · rename_i hc
        obtain rfl := Option.some.inj h
        exact .registerDBJob hb hc.1
      · cases h
    · cases h
  | getRegistedDBJob key =>
    rw [Lifetimes.step] at h
    split at h
    · split at h
      · obtain rfl := Option.some.inj h
        exact .notFound
      · rename_i b hfind
        obtain ⟨batch, hb, rfl⟩ := Option.map_eq_some_iff.mp h
        exact .found hfind hb
    · cases h
  | copy b =>
    rw [Lifetimes.step] at h
    split at h
    · rename_i batch hb
      split at h
      · rename_i hc
        obtain rfl := Option.some.inj h
        exact .copy hb hc
      · cases h
    · cases h
  | drop b =>
    rw [Lifetimes.step] at h
    split at h
    · rename_i batch hb
      split at h
      · rename_i hc
        obtain rfl := Option.some.inj h
        exact .drop hb hc.1 hc.2
      · cases h
    · cases h
  | destroy b =>
    rw [Lifetimes.step] at h
    split at h
    · rename_i batch hb
      split at h
      · rename_i hc
        obtain rfl := Option.some.inj h
        exact .destroy hb hc.1
      · cases h
    · cases h

/-! ## The invariant -/

/-- **Draws below `2 ^ 64` are different keys.** -/
theorem ofNat_inj_of_lt (hi : i < 2 ^ 64) (hj : j < 2 ^ 64) :
    UInt64.ofNat i = UInt64.ofNat j ↔ i = j := by
  refine ⟨fun h => ?_, fun h => h ▸ rfl⟩
  have hnat := congrArg UInt64.toNat h
  rwa [UInt64.toNat_ofNat', UInt64.toNat_ofNat', Nat.mod_eq_of_lt hi, Nat.mod_eq_of_lt hj] at hnat

/-- What is known of a batch while the counter stands at `n`. -/
structure BatchKept (n : ℕ) (batch : SharedBatch) : Prop where
  draw_lt : batch.draw < n
  registered_gt : ∀ j, batch.registered = some j → batch.draw < j ∧ j < n
  alive : batch.destroyed = false
  useCount_eq : batch.useCount = batch.holders + batch.registered.toList.length
  held : batch.registered = none → 0 < batch.holders

/-- **The registry keeps its batches**: the map holds each under the draw of its registration and
nothing else. -/
structure Kept (m : Lifetimes) : Prop where
  batches : ∀ (b : ℕ) (batch : SharedBatch), m.batches[b]? = some batch →
    BatchKept m.jobKey batch
  /-- No batch's own draw is the one of a registration. -/
  apart : ∀ (b b' : ℕ) (batch batch' : SharedBatch) (j : ℕ), m.batches[b]? = some batch →
    m.batches[b']? = some batch' → batch'.registered = some j → batch.draw ≠ j
  found : ∀ (b : ℕ) (batch : SharedBatch) (j : ℕ), m.batches[b]? = some batch →
    batch.registered = some j → m.jobMap.find (UInt64.ofNat j) = some b
  entry : ∀ (key : DBJobKey) (b : ℕ), m.jobMap.find key = some b →
    ∃ (batch : SharedBatch) (j : ℕ), m.batches[b]? = some batch ∧ batch.registered = some j ∧
      key = UInt64.ofNat j
  moving : m.stuck = false

theorem BatchKept.mono {n n' : ℕ} (h : BatchKept n batch) (hle : n ≤ n') : BatchKept n' batch :=
  ⟨Nat.lt_of_lt_of_le h.draw_lt hle, fun j hj => ⟨(h.registered_gt j hj).1,
    Nat.lt_of_lt_of_le (h.registered_gt j hj).2 hle⟩, h.alive, h.useCount_eq, h.held⟩

/-- A batch that is kept has a reference. -/
theorem BatchKept.useCount_pos {n : ℕ} (h : BatchKept n batch) : 0 < batch.useCount := by
  rw [h.useCount_eq]
  cases hreg : batch.registered with
  | none => have := h.held hreg; simp; omega
  | some j => simp

theorem kept_start : Kept Lifetimes.start where
  batches b batch hb := by cases hb
  apart b b' batch batch' j hb := by cases hb
  found b batch j hb := by cases hb
  entry key b h := by cases h
  moving := rfl

/-- What a place holds after a replacement that keeps the draws was there before. -/
theorem old_of_put {batch' batch'' : SharedBatch} {b' : ℕ} (hb : m.batches[b]? = some batch)
    (hdraw : batch'.draw = batch.draw) (hreg : batch'.registered = batch.registered)
    (h : (m.put b batch').batches[b']? = some batch'') :
    ∃ old : SharedBatch, m.batches[b']? = some old ∧ batch''.draw = old.draw ∧
      batch''.registered = old.registered := by
  rcases getElem?_set_eq_some h with ⟨rfl, rfl⟩ | ⟨-, hold⟩
  · exact ⟨batch, hb, hdraw, hreg⟩
  · exact ⟨batch'', hold, rfl, rfl⟩

/-- **The references outside the map come and go**: the batch stays where it was registered. -/
theorem Kept.put {batch' : SharedBatch} (h : Kept m) (hb : m.batches[b]? = some batch)
    (hkept : BatchKept m.jobKey batch') (hdraw : batch'.draw = batch.draw)
    (hreg : batch'.registered = batch.registered) : Kept (m.put b batch') where
  batches b' batch'' hb' := by
    rcases getElem?_set_eq_some hb' with ⟨rfl, rfl⟩ | ⟨-, hold⟩
    · exact hkept
    · exact h.batches b' batch'' hold
  apart b₁ b₂ batch₁ batch₂ j h₁ h₂ hj := by
    obtain ⟨old₁, hold₁, hd₁, -⟩ := old_of_put hb hdraw hreg h₁
    obtain ⟨old₂, hold₂, -, hr₂⟩ := old_of_put hb hdraw hreg h₂
    exact hd₁ ▸ h.apart b₁ b₂ old₁ old₂ j hold₁ hold₂ (hr₂ ▸ hj)
  found b' batch'' j hb' hj := by
    rcases getElem?_set_eq_some hb' with ⟨rfl, rfl⟩ | ⟨-, hold⟩
    · exact h.found _ batch j hb (hreg ▸ hj)
    · exact h.found b' batch'' j hold hj
  entry key b' hfind := by
    obtain ⟨old, j, hold, hj, hkey⟩ := h.entry key b' hfind
    by_cases heq : b = b'
    · subst heq
      obtain rfl : batch = old := Option.some.inj (hb.symm.trans hold)
      exact ⟨batch', j, List.getElem?_set_self (List.getElem?_eq_some_iff.mp hb).1,
        hreg.trans hj, hkey⟩
    · exact ⟨old, j, (List.getElem?_set_ne heq).trans hold, hj, hkey⟩
  moving := h.moving

theorem Kept.makeShared (h : Kept m) : Kept m.makeShared where
  batches b batch hb := by
    rcases getElem?_concat_eq_some hb with hold | ⟨-, rfl⟩
    · exact (h.batches b batch hold).mono (Nat.le_succ _)
    · exact ⟨Nat.lt_succ_self _, fun j hj => (by cases hj), rfl, rfl, fun _ => Nat.one_pos⟩
  apart b₁ b₂ batch₁ batch₂ j h₁ h₂ hj := by
    rcases getElem?_concat_eq_some h₂ with h₂ | ⟨-, rfl⟩
    · rcases getElem?_concat_eq_some h₁ with h₁ | ⟨-, rfl⟩
      · exact h.apart b₁ b₂ batch₁ batch₂ j h₁ h₂ hj
      · exact Nat.ne_of_gt ((h.batches b₂ batch₂ h₂).registered_gt j hj).2
    · cases hj
  found b batch j hb hj := by
    rcases getElem?_concat_eq_some hb with hold | ⟨-, rfl⟩
    · exact h.found b batch j hold hj
    · cases hj
  entry key b hfind := by
    obtain ⟨batch, j, hb, hj, hkey⟩ := h.entry key b hfind
    exact ⟨batch, j, (List.getElem?_append_left (List.getElem?_eq_some_iff.mp hb).1).trans hb,
      hj, hkey⟩
  moving := h.moving

/-- The key a registration draws is free. -/
theorem Kept.free (h : Kept m) (hn : m.jobKey < 2 ^ 64) :
    m.jobMap.find (UInt64.ofNat m.jobKey) = none := by
  cases hfind : m.jobMap.find (UInt64.ofNat m.jobKey) with
  | none => rfl
  | some b =>
    obtain ⟨batch, j, hb, hj, hkey⟩ := h.entry _ b hfind
    have hlt := ((h.batches b batch hb).registered_gt j hj).2
    rw [ofNat_inj_of_lt hn (Nat.lt_trans hlt hn)] at hkey
    omega

/-- **A registration enters the batch under the new draw.** -/
theorem Kept.registerDBJob (h : Kept m) (hn : m.jobKey < 2 ^ 64) (hb : m.batches[b]? = some batch)
    (hreg : batch.registered = none) : Kept (m.registerDBJob b batch) := by
  have hkept := h.batches b batch hb
  have hfree := h.free hn
  rw [Lifetimes.registerDBJob, hfree]
  refine ⟨fun b' batch' hb' => ?_, fun b₁ b₂ batch₁ batch₂ j h₁ h₂ hj => ?_,
    fun b' batch' j hb' hj => ?_, fun key b' hfind => ?_, h.moving⟩
  · rcases getElem?_set_eq_some hb' with ⟨rfl, rfl⟩ | ⟨-, hold⟩
    · refine ⟨Nat.lt_succ_of_lt hkept.draw_lt, fun j hj => ?_, hkept.alive, ?_,
        fun hnone => (by cases hnone)⟩
      · obtain rfl := Option.some.inj hj
        exact ⟨hkept.draw_lt, Nat.lt_succ_self _⟩
      · simp [hkept.useCount_eq, hreg]
    · exact (h.batches b' batch' hold).mono (Nat.le_succ _)
  · obtain ⟨old, hold, hdraw⟩ : ∃ old : SharedBatch, m.batches[b₁]? = some old ∧
        batch₁.draw = old.draw := by
      rcases getElem?_set_eq_some h₁ with ⟨rfl, rfl⟩ | ⟨-, hold⟩
      · exact ⟨batch, hb, rfl⟩
      · exact ⟨batch₁, hold, rfl⟩
    rw [hdraw]
    rcases getElem?_set_eq_some h₂ with ⟨rfl, rfl⟩ | ⟨-, h₂⟩
    · obtain rfl := Option.some.inj hj
      exact Nat.ne_of_lt (h.batches b₁ old hold).draw_lt
    · exact h.apart b₁ b₂ old batch₂ j hold h₂ hj
  · rcases getElem?_set_eq_some hb' with ⟨rfl, rfl⟩ | ⟨-, hold⟩
    · obtain rfl := Option.some.inj hj
      exact KeyMap.find_assign_self
    · have hold' := h.found b' batch' j hold hj
      have hne : UInt64.ofNat j ≠ UInt64.ofNat m.jobKey := by
        intro heq
        rw [heq, hfree] at hold'
        cases hold'
      exact (KeyMap.find_assign_of_ne hne).trans hold'
  · rcases KeyMap.find_assign_eq_some.mp hfind with ⟨rfl, rfl⟩ | ⟨-, hold⟩
    · exact ⟨_, m.jobKey, List.getElem?_set_self (List.getElem?_eq_some_iff.mp hb).1, rfl, rfl⟩
    · obtain ⟨old, j, hold, hj, hkey⟩ := h.entry key b' hold
      have hne : b ≠ b' := by
        rintro rfl
        obtain rfl : batch = old := Option.some.inj (hb.symm.trans hold)
        rw [hreg] at hj
        cases hj
      exact ⟨old, j, (List.getElem?_set_ne hne).trans hold, hj, hkey⟩

/-- The counter only grows. -/
theorem jobKey_le (h : LivesOn m m') : m.jobKey ≤ m'.jobKey := by
  cases h with
  | makeShared => exact Nat.le_succ _
  | registerDBJob hb hreg =>
    unfold Lifetimes.registerDBJob
    split <;> exact Nat.le_succ _
  | notFound | found | copy | drop => exact Nat.le_refl _
  | destroy hb hzero =>
    unfold Lifetimes.deregisterDBJob
    split
    · exact Nat.le_refl _
    · split <;> exact Nat.le_refl _

/-- **Every step keeps the batches**, up to the counter's last draw. No destructor is ever run: the
reference of the map outlives all others. -/
theorem Kept.step (h : Kept m) (hn : m'.jobKey ≤ 2 ^ 64) (hstep : LivesOn m m') : Kept m' := by
  cases hstep with
  | makeShared => exact h.makeShared
  | registerDBJob hb hreg =>
    have hlt : m.jobKey < 2 ^ 64 := by
      rw [Lifetimes.registerDBJob] at hn
      split at hn <;> exact hn
    exact h.registerDBJob hlt hb hreg
  | notFound => exact h
  | found _ hb | copy hb _ =>
    have hkept := h.batches _ _ hb
    refine h.put hb ⟨hkept.draw_lt, hkept.registered_gt, hkept.alive, ?_, fun _ =>
      Nat.succ_pos _⟩ rfl rfl
    have := hkept.useCount_eq
    simp only [SharedBatch.copied]
    omega
  | drop hb hpos hreg =>
    have hkept := h.batches _ _ hb
    refine h.put hb ⟨hkept.draw_lt, hkept.registered_gt, hkept.alive, ?_, fun hnone =>
      absurd hnone hreg⟩ rfl rfl
    have := hkept.useCount_eq
    simp only [SharedBatch.dropped]
    omega
  | destroy hb hzero =>
    have := (h.batches _ _ hb).useCount_pos
    omega

/-- A batch's own key is never one that is registered. -/
theorem Kept.find_dbJobKey (h : Kept m) (hn : m.jobKey ≤ 2 ^ 64)
    (hb : m.batches[b]? = some batch) : m.jobMap.find batch.dbJobKey = none := by
  cases hfind : m.jobMap.find batch.dbJobKey with
  | none => rfl
  | some b' =>
    obtain ⟨batch', j, hb', hj, hkey⟩ := h.entry _ b' hfind
    have hdraw := (h.batches b batch hb).draw_lt
    have hreg := ((h.batches b' batch' hb').registered_gt j hj).2
    rw [SharedBatch.dbJobKey, ofNat_inj_of_lt (by omega) (by omega)] at hkey
    exact absurd hkey (h.apart b b' batch batch' j hb hb' hj)

/-- **The registry over every run**, up to the counter's last draw: nobody gets stuck and no batch
is destroyed, whoever drops his references; no batch is found under its own key. Every batch
`MakeBatchedDBJob` has returned is found under the draw of its registration, which is a later one
than its own, and has one reference beyond its holders; nothing else is found. -/
theorem kept_of_reachable (h : lifetimeSystem.Reachable m) (hn : m.jobKey ≤ 2 ^ 64) :
    m.stuck = false ∧
      (∀ (b : ℕ) (batch : SharedBatch), m.batches[b]? = some batch → batch.destroyed = false ∧
        0 < batch.useCount ∧ m.getRegistedDBJob batch.dbJobKey = none) ∧
      (∀ (b : ℕ) (batch : SharedBatch) (j : ℕ), m.batches[b]? = some batch →
        batch.registered = some j → m.getRegistedDBJob (UInt64.ofNat j) = some b ∧
          batch.draw < j ∧ batch.useCount = batch.holders + 1) ∧
      ∀ (key : DBJobKey) (b : ℕ), m.getRegistedDBJob key = some b →
        ∃ (batch : SharedBatch) (j : ℕ), m.batches[b]? = some batch ∧
          batch.registered = some j ∧ key = UInt64.ofNat j := by
  have hkept : Kept m := by
    refine System.ReachableUnder.invariant (P := fun m => m.jobKey ≤ 2 ^ 64 → Kept m)
      (fun m hm _ => ?_) (fun m e m' ih _ hs hle => ?_) h hn
    · obtain rfl : m = Lifetimes.start := hm
      exact kept_start
    · have hlives := livesOn hs
      exact (ih (Nat.le_trans (jobKey_le hlives) hle)).step hle hlives
  refine ⟨hkept.moving, fun b batch hb => ?_, fun b batch j hb hj => ?_, hkept.entry⟩
  · have hbatch := hkept.batches b batch hb
    exact ⟨hbatch.alive, hbatch.useCount_pos, hkept.find_dbJobKey hn hb⟩
  · have hbatch := hkept.batches b batch hb
    refine ⟨hkept.found b batch j hb hj, (hbatch.registered_gt j hj).1, ?_⟩
    rw [hbatch.useCount_eq, hj]
    rfl

/-- One made, registered and given up by its last holder. -/
theorem kept_one : ∃ m, lifetimeSystem.Reachable m ∧ m.jobKey = 3 ∧ m.stuck = false ∧
    m.getRegistedDBJob 2 = some 0 := by
  obtain ⟨m, hm, hf⟩ := System.exists_reachable lifetimeSystem
    [.makeShared, .registerDBJob 0, .drop 0] (f := fun m => m.jobKey = 3 ∧
      m.batches = [⟨1, 1, 0, some 2, false⟩]) rfl (by decide)
  obtain ⟨hkey, hbatches⟩ := of_decide_eq_true hf
  have hkept := kept_of_reachable hm (by omega)
  exact ⟨m, hm, hkey, hkept.1, (hkept.2.2.1 0 _ 2 (by rw [hbatches]; rfl) rfl).1⟩

end GameDB

end DdingGameServer
