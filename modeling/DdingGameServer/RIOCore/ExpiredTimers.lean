import DdingGameServer.Common.NodeList
import DdingGameServer.RIOCore.Timer
/-!
# Expired timers — the loop that takes them out of the list

`GetExpiredTimer` walks `timerList` from the front and takes an expired timer out with `pop_front`,
which removes the node the loop stands on: the next turn starts from a node that is gone. Here the
list is one of nodes. `takesExpired_iff` says when the loop does what it is for, and
`expireLoop_eq_some_iff` that it is the loop of `TimerManager.getExpiredTimer`.
-/

namespace DdingGameServer

namespace RIOCore

open NodeList

variable {wakeUpTime : Timer → Int64} {nowTick : Int64} {outList taken left : List Timer}
  {timerList : NodeList Timer}

/-- A turn of the loop of `GetExpiredTimer`. -/
def expireTurn (wakeUpTime : Timer → Int64) (nowTick : Int64) (outList : List Timer)
    (iter : Timer) : Turn (List Timer) :=
  if wakeUpTime iter < nowTick then ⟨outList ++ [iter], true, false⟩ else ⟨outList, false, true⟩

/-- The loop of `GetExpiredTimer` over the nodes of `timerList`. -/
def expireNodes (wakeUpTime : Timer → Int64) (nowTick : Int64) (fuel : ℕ) (outList : List Timer)
    (timerList : NodeList Timer) : Ending (List Timer) Timer :=
  rangeFor (expireTurn wakeUpTime nowTick) fuel outList timerList timerList.first

/-- **The expired timers are taken**: the loop ends without reading a node it has taken out, and in
order the timers below the tick are appended to `outList` and the others left. -/
def TakesExpired (wakeUpTime : Timer → Int64) (nowTick : Int64) (outList : List Timer)
    (timerList : NodeList Timer) : Prop :=
  ∃ fuel timerList', expireNodes wakeUpTime nowTick fuel outList timerList =
      .finished (outList ++ timerList.values.filter fun timer => wakeUpTime timer < nowTick)
        timerList' ∧
    timerList'.values = timerList.values.filter fun timer => ¬ wakeUpTime timer < nowTick

/-- A turn takes the first node out unless it breaks off. -/
theorem expireTurn_popsFront (outList : List Timer) (iter : Timer) :
    (expireTurn wakeUpTime nowTick outList iter).popsFront =
      !(expireTurn wakeUpTime nowTick outList iter).breaks := by
  unfold expireTurn
  split_ifs <;> rfl

/-- A turn breaks off at a timer that has not expired, and leaves `outList`. -/
theorem expireTurn_breaks_iff {iter : Timer} :
    (expireTurn wakeUpTime nowTick outList iter).breaks = true ↔ ¬ wakeUpTime iter < nowTick := by
  by_cases hexpired : wakeUpTime iter < nowTick
  · rw [expireTurn, if_pos hexpired]
    exact iff_of_false Bool.false_ne_true (not_not_intro hexpired)
  · rw [expireTurn, if_neg hexpired]
    exact iff_of_true rfl hexpired

/-- **The loop comes to its end where the first timer has not expired**, and takes nothing. -/
theorem ends_expireTurn_iff {outList' : List Timer} {timerList' : NodeList Timer} :
    Ends (expireTurn wakeUpTime nowTick) outList timerList outList' timerList' ↔
      timerList' = timerList ∧ outList' = outList ∧
        ∀ iter ∈ timerList.values.head?, ¬ wakeUpTime iter < nowTick := by
  rw [ends_iff expireTurn_popsFront, values]
  refine and_congr_right fun _ => ?_
  cases timerList.nodes with
  | nil => simp
  | cons n rest =>
    have hstate : ¬ wakeUpTime n.value < nowTick →
        (expireTurn wakeUpTime nowTick outList n.value).state = outList := fun h => by
      rw [expireTurn, if_neg h]
    constructor
    · rintro (⟨hnil, -⟩ | ⟨m, rest', hcons, hbreaks, rfl⟩)
      · cases hnil
      · cases hcons
        have hnot := expireTurn_breaks_iff.mp hbreaks
        exact ⟨hstate hnot, by simpa using hnot⟩
    · rintro ⟨rfl, hnot⟩
      have hnot' : ¬ wakeUpTime n.value < nowTick := by simpa using hnot
      exact .inr ⟨n, rest, rfl, expireTurn_breaks_iff.mpr hnot', (hstate hnot').symm⟩

/-- Where it has, the loop takes it and reads the node it was in. -/
theorem expireNodes_of_expired {n : Node Timer} {rest : List (Node Timer)} {fuel : ℕ}
    (h : timerList.nodes = n :: rest) (hexpired : wakeUpTime n.value < nowTick) :
    expireNodes wakeUpTime nowTick (fuel + 1) outList timerList =
      .readsRemoved (outList ++ [n.value]) timerList.popFront := by
  have hturn : expireTurn wakeUpTime nowTick outList n.value =
      ⟨outList ++ [n.value], true, false⟩ := if_pos hexpired
  rw [expireNodes, rangeFor_of_pops h (by rw [hturn]) (by rw [hturn]), hturn]

/-- **The expired timers are taken exactly where there is none**, for every list and every tick: an
expired timer at the front is taken out under the loop, and one further back is not reached. In a
list sorted by wake-up time this is where the first timer has not expired. -/
theorem takesExpired_iff (wakeUpTime : Timer → Int64) (nowTick : Int64) (outList : List Timer)
    (timerList : NodeList Timer) :
    TakesExpired wakeUpTime nowTick outList timerList ↔
      ∀ timer ∈ timerList.values, ¬ wakeUpTime timer < nowTick := by
  constructor
  · rintro ⟨fuel, timerList', hends, -⟩
    obtain ⟨-, hout, -⟩ := ends_expireTurn_iff.mp ⟨fuel, hends⟩
    have hnone := List.append_right_eq_self.mp hout
    intro timer hmem
    simpa using List.filter_eq_nil_iff.mp hnone timer hmem
  · intro hnone
    have hexpired : (timerList.values.filter fun timer => wakeUpTime timer < nowTick) = [] :=
      List.filter_eq_nil_iff.mpr fun timer hmem => by simpa using hnone timer hmem
    have hothers : (timerList.values.filter fun timer => ¬ wakeUpTime timer < nowTick) =
        timerList.values :=
      List.filter_eq_self.mpr fun timer hmem => by simpa using hnone timer hmem
    have hends : Ends (expireTurn wakeUpTime nowTick) outList timerList outList timerList :=
      ends_expireTurn_iff.mpr ⟨rfl, rfl, fun iter hmem => hnone iter (List.mem_of_mem_head? hmem)⟩
    obtain ⟨fuel, hfuel⟩ := hends
    refine ⟨fuel, timerList, ?_, hothers.symm⟩
    rw [hexpired, List.append_nil]
    exact hfuel

/-- **The loop over the nodes is the loop of `TimerManager.getExpiredTimer`**: it comes to its end
where that one gives a result, with what that one takes and leaves. -/
theorem expireLoop_eq_some_iff :
    TimerManager.expireLoop wakeUpTime nowTick timerList.values = some (taken, left) ↔
      ∃ timerList', Ends (expireTurn wakeUpTime nowTick) outList timerList (outList ++ taken)
        timerList' ∧ timerList'.values = left := by
  have hnot : (∃ timerList', Ends (expireTurn wakeUpTime nowTick) outList timerList
      (outList ++ taken) timerList' ∧ timerList'.values = left) ↔
      taken = [] ∧ timerList.values = left ∧
        ∀ iter ∈ timerList.values.head?, ¬ wakeUpTime iter < nowTick := by
    simp only [ends_expireTurn_iff, List.append_right_eq_self]
    constructor
    · rintro ⟨timerList', ⟨rfl, rfl, hfirst⟩, rfl⟩
      exact ⟨rfl, rfl, hfirst⟩
    · rintro ⟨rfl, rfl, hfirst⟩
      exact ⟨timerList, ⟨rfl, rfl, hfirst⟩, rfl⟩
  rw [hnot]
  cases timerList.values with
  | nil =>
    rw [TimerManager.expireLoop, Option.some_inj, Prod.mk.injEq, List.head?_nil]
    constructor
    · rintro ⟨rfl, rfl⟩
      exact ⟨rfl, rfl, fun _ h => by cases h⟩
    · rintro ⟨rfl, rfl, -⟩
      exact ⟨rfl, rfl⟩
  | cons iter rest =>
    rw [TimerManager.expireLoop, List.head?_cons]
    by_cases hexpired : wakeUpTime iter < nowTick
    · rw [if_pos hexpired]
      exact iff_of_false (Option.some_ne_none _).symm fun h => h.2.2 iter rfl hexpired
    · rw [if_neg hexpired, Option.some_inj, Prod.mk.injEq]
      constructor
      · rintro ⟨rfl, rfl⟩
        exact ⟨rfl, rfl, fun _ h => Option.some.inj h ▸ hexpired⟩
      · rintro ⟨rfl, rfl, -⟩
        exact ⟨rfl, rfl⟩

/-- A list of one timer. -/
def oneTimer : NodeList Timer := ⟨[⟨0, ⟨1⟩⟩], by decide⟩

/-- **One timer has expired**, and the loop reads the node it has taken out. -/
theorem not_takesExpired_one :
    (∀ fuel, expireNodes (fun _ => 5) 10 (fuel + 1) [] oneTimer =
      .readsRemoved [⟨1⟩] oneTimer.popFront) ∧ ¬ TakesExpired (fun _ => 5) 10 [] oneTimer := by
  have hexpired : (5 : Int64) < 10 := by decide
  have hnodes : oneTimer.nodes = [⟨0, ⟨1⟩⟩] := rfl
  refine ⟨fun fuel => ?_, ?_⟩
  · refine expireNodes_of_expired hnodes ?_
    exact hexpired
  · rintro ⟨fuel, timerList', hends, -⟩
    have hfirst := (ends_expireTurn_iff.mp ⟨fuel, hends⟩).2.2
    exact hfirst ⟨1⟩ rfl hexpired

end RIOCore

end DdingGameServer
