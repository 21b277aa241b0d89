import Mathlib.Data.List.Chain
import Mathlib.Tactic.Common
/-!
# RIOServer — the frames of a worker

At the end of each iteration a worker sleeps for what is left of its frame, counted from
`beforeTick`. That is the tick at the end of the work of the iteration before, from before its sleep:
the sleep is counted as work of the next frame, which then gets no sleep of its own. And an iteration
that takes no time at all gets none either. So two iterations begin a frame apart only if one of
them works that long.

A tick is a millisecond. The tick count is taken not to wrap, and `Sleep` to take as long as it is
told to.
-/

namespace DdingGameServer

namespace RIOServer

/-- `ONE_FRAME`. -/
def oneFrame : ℕ := 33

/-- `TickSet`. -/
structure TickSet where
  nowTick : ℕ
  beforeTick : ℕ
  deriving DecidableEq, Repr

/-- A worker, and the time. -/
structure FrameClock where
  /-- What `GetTickCount64` gives. -/
  tickCount : ℕ
  tickSet : TickSet
  deriving DecidableEq, Repr

/-- `SleepRemainingFrameTime`. -/
def sleepRemainingFrameTime (c : FrameClock) : FrameClock :=
  let nowTick := c.tickCount
  let deltaTick := nowTick - c.tickSet.beforeTick
  let tickCount :=
    if deltaTick < oneFrame ∧ 0 < deltaTick then c.tickCount + (oneFrame - deltaTick)
    else c.tickCount
  { tickCount := tickCount, tickSet := { nowTick := nowTick, beforeTick := nowTick } }

/-- One iteration of the loop of `Worker`, which works for `work` milliseconds. -/
def frame (c : FrameClock) (work : ℕ) : FrameClock :=
  sleepRemainingFrameTime { c with tickCount := c.tickCount + work }

/-- `Worker` in front of its loop. -/
def FrameClock.start (tickCount : ℕ) : FrameClock where
  tickCount := tickCount
  tickSet := { nowTick := tickCount, beforeTick := tickCount }

/-- When the iterations of the loop begin, the one behind the last included. -/
def frameStarts (c : FrameClock) : List ℕ → List ℕ
  | [] => [c.tickCount]
  | work :: works => c.tickCount :: frameStarts (frame c work) works

/-- **Any two consecutive iterations begin at least a frame apart.** -/
def Paced (starts : List ℕ) : Prop := starts.IsChain fun start next => start + oneFrame ≤ next

/-- No iteration takes no time, and of two consecutive ones one works for a frame. -/
def WorksFrames (works : List ℕ) : Prop :=
  (∀ work ∈ works, 0 < work) ∧
    works.IsChain fun work next => oneFrame ≤ work ∨ oneFrame ≤ next

variable {c : FrameClock} {work tickCount : ℕ} {works : List ℕ}

/-! ## One iteration -/

/-- How long the worker has slept since `beforeTick`. -/
def FrameClock.slept (c : FrameClock) : ℕ := c.tickCount - c.tickSet.beforeTick

/-- A worker at the beginning of an iteration: it has slept for less than a frame. -/
structure FrameClock.Begins (c : FrameClock) : Prop where
  before_le : c.tickSet.beforeTick ≤ c.tickCount
  slept_lt : c.slept < oneFrame

theorem FrameClock.begins_start : (FrameClock.start tickCount).Begins := by
  refine ⟨le_rfl, ?_⟩
  show tickCount - tickCount < oneFrame
  rw [Nat.sub_self]
  decide

/-- **The sleep of an iteration**, by what was slept before and what it works. -/
theorem slept_frame (h : c.Begins) : (frame c work).slept =
    if c.slept + work < oneFrame ∧ 0 < c.slept + work then oneFrame - (c.slept + work) else 0 := by
  have hle := h.before_le
  have hdelta : c.tickCount + work - c.tickSet.beforeTick = c.slept + work := by
    unfold FrameClock.slept
    omega
  show (frame c work).tickCount - (c.tickCount + work) = _
  simp only [frame, sleepRemainingFrameTime, hdelta]
  by_cases hsleeps : c.slept + work < oneFrame ∧ 0 < c.slept + work
  · rw [if_pos hsleeps, if_pos hsleeps]
    omega
  · rw [if_neg hsleeps, if_neg hsleeps]
    omega

/-- **An iteration takes its work and its sleep.** -/
theorem tickCount_frame : (frame c work).tickCount = c.tickCount + work + (frame c work).slept := by
  have hslept : (frame c work).slept = (frame c work).tickCount - (c.tickCount + work) := rfl
  have hle : c.tickCount + work ≤ (frame c work).tickCount := by
    simp only [frame, sleepRemainingFrameTime]
    split <;> omega
  omega

theorem FrameClock.Begins.frame (h : c.Begins) : (frame c work).Begins := by
  refine ⟨?_, ?_⟩
  · have htick := @tickCount_frame c work
    show c.tickCount + work ≤ _
    omega
  · rw [slept_frame h]
    unfold oneFrame
    split <;> omega

/-- **An iteration takes a frame exactly if it works that long**, or works at all and the one before
has not slept. -/
theorem frame_le_iff (h : c.Begins) : c.tickCount + oneFrame ≤ (frame c work).tickCount ↔
    oneFrame ≤ work ∨ 0 < work ∧ c.slept = 0 := by
  have hlt := h.slept_lt
  rw [tickCount_frame, slept_frame h]
  unfold oneFrame at hlt ⊢
  split <;> omega

/-- And it sleeps exactly if it works for less than what is left of the frame. -/
theorem slept_frame_ne_zero_iff (h : c.Begins) (hpaced : oneFrame ≤ work ∨ 0 < work ∧ c.slept = 0) :
    (frame c work).slept ≠ 0 ↔ work < oneFrame := by
  rw [slept_frame h]
  unfold oneFrame at hpaced ⊢
  split <;> omega

/-! ## The loop -/

/-- The first start, and those behind it. -/
theorem paced_frameStarts_cons : Paced (frameStarts c (work :: works)) ↔
    c.tickCount + oneFrame ≤ (frame c work).tickCount ∧
      Paced (frameStarts (frame c work) works) := by
  cases works with
  | nil => exact List.isChain_cons_cons
  | cons next works => exact List.isChain_cons_cons

/-- An iteration that works for a frame, or is followed by one. -/
theorem worksFrames_cons : WorksFrames (work :: works) ↔
    0 < work ∧ (∀ next ∈ works.head?, oneFrame ≤ work ∨ oneFrame ≤ next) ∧ WorksFrames works := by
  cases works with
  | nil =>
    constructor
    · intro h
      refine ⟨h.1 work List.mem_cons_self, fun next hnext => ?_, fun next hnext => ?_, .nil⟩
      · cases hnext
      · cases hnext
    · intro h
      exact ⟨List.forall_mem_singleton.mpr h.1, .singleton work⟩
  | cons next works =>
    constructor
    · rintro ⟨hpos, hchain⟩
      obtain ⟨hwork, hworks⟩ := List.forall_mem_cons.mp hpos
      obtain ⟨hfirst, hrest⟩ := List.isChain_cons_cons.mp hchain
      refine ⟨hwork, fun next' hnext => ?_, hworks, hrest⟩
      obtain rfl := Option.some.inj hnext
      exact hfirst
    · rintro ⟨hwork, hfirst, hworks, hrest⟩
      exact ⟨List.forall_mem_cons.mpr ⟨hwork, hworks⟩, .cons_cons (hfirst next rfl) hrest⟩

/-- **The starts are a frame apart**, by what the worker has slept before. -/
theorem paced_iff_of_begins (h : c.Begins) : Paced (frameStarts c works) ↔
    WorksFrames works ∧ (c.slept ≠ 0 → ∀ work ∈ works.head?, oneFrame ≤ work) := by
  induction works generalizing c with
  | nil =>
    refine iff_of_true (List.IsChain.singleton _) ⟨⟨?_, List.IsChain.nil⟩, ?_⟩
    · exact fun work hwork => absurd hwork List.not_mem_nil
    · exact fun _ work hwork => by cases hwork
  | cons work works ih =>
    rw [paced_frameStarts_cons, frame_le_iff h, ih h.frame, worksFrames_cons]
    constructor
    · rintro ⟨hpaced, hworks, hslept⟩
      refine ⟨⟨?_, fun next hnext => ?_, hworks⟩, fun hbefore work' hwork => ?_⟩
      · unfold oneFrame at hpaced
        omega
      · -- an iteration shorter than a frame sleeps, and the next one gets no sleep
        by_cases hwork : work < oneFrame
        · exact .inr (hslept ((slept_frame_ne_zero_iff h hpaced).mpr hwork) next hnext)
        · exact .inl (Nat.not_lt.mp hwork)
      · obtain rfl := Option.some.inj hwork
        exact hpaced.resolve_right fun hboth => hbefore hboth.2
    · rintro ⟨⟨hpos, hfirst, hworks⟩, hbefore⟩
      have hpaced : oneFrame ≤ work ∨ 0 < work ∧ c.slept = 0 := by
        by_cases hslept : c.slept = 0
        · exact .inr ⟨hpos, hslept⟩
        · exact .inl (hbefore hslept work rfl)
      refine ⟨hpaced, hworks, fun hslept next hnext => ?_⟩
      have hshort := (slept_frame_ne_zero_iff h hpaced).mp hslept
      exact (hfirst next hnext).resolve_left (Nat.not_le.mpr hshort)

/-- **The iterations of a worker begin a frame apart exactly if none takes no time and of two
consecutive ones one works for a frame**, for every start and every sequence of work. -/
theorem paced_iff (tickCount : ℕ) (works : List ℕ) :
    Paced (frameStarts (.start tickCount) works) ↔ WorksFrames works := by
  rw [paced_iff_of_begins FrameClock.begins_start]
  refine and_iff_left fun hslept => absurd ?_ hslept
  exact Nat.sub_self tickCount

/-- **Ten milliseconds of work in each iteration**: the second one begins 33 ms after the first, and
the third 10 ms after the second. -/
theorem not_paced_ten : frameStarts (.start 1000) [10, 10] = [1000, 1033, 1043] ∧
    ¬ Paced (frameStarts (.start 1000) [10, 10]) := by
  refine ⟨by decide, fun h => ?_⟩
  exact absurd (paced_frameStarts_cons.mp (paced_frameStarts_cons.mp h).2).1 (by decide)

end RIOServer

end DdingGameServer
