import DdingGameServer.Common.System
/-!
# Systems with a history

What a property says about the past of a run is kept beside the state: `recorded` runs a system
together with a record that every step brings up to date and no step reads. The record blocks
nothing and changes nothing, so the states of the recorded system are those of the system.
-/

namespace DdingGameServer

namespace System

universe u v w

variable {S : Type u} {Ev : Type v} {H : Type w}

/-- **A system and a record of its run**: `record h s e` is the record after the event `e` in the
state `s`. -/
def recorded (sys : System S Ev) (start : H) (record : H → S → Ev → H) : System (S × H) Ev where
  Init x := sys.Init x.1 ∧ x.2 = start
  step x e := (sys.step x.1 e).map fun s' => (s', record x.2 x.1 e)

variable {sys : System S Ev} {start : H} {record : H → S → Ev → H} {C : S × H → Ev → Prop}
  {x x' : S × H} {e : Ev}

/-- A step of the recorded system is a step of the system, written down. -/
theorem recorded_step_eq_some :
    (sys.recorded start record).step x e = some x' ↔
      sys.step x.1 e = some x'.1 ∧ x'.2 = record x.2 x.1 e := by
  simp only [recorded, Option.map_eq_some_iff]
  constructor
  · rintro ⟨s', hs', rfl⟩
    exact ⟨hs', rfl⟩
  · rintro ⟨hs', hh⟩
    exact ⟨x'.1, hs', by rw [← hh]⟩

/-- **What the record does not say is unchanged**: the states reached are the system's. -/
theorem ReachableUnder.of_recorded (h : (sys.recorded start record).ReachableUnder C x) :
    sys.Reachable x.1 := by
  induction h with
  | init h => exact .init h.1
  | step _ _ hs ih => exact .step ih trivial (recorded_step_eq_some.mp hs).1

/-- **The invariant rule with a record.** -/
theorem ReachableUnder.recorded_invariant {P : S → H → Prop}
    (hinit : ∀ s, sys.Init s → P s start)
    (hstep : ∀ s h e s', sys.Reachable s → P s h → C (s, h) e → sys.step s e = some s' →
      P s' (record h s e))
    (h : (sys.recorded start record).ReachableUnder C x) : P x.1 x.2 := by
  induction h with
  | init h => exact h.2 ▸ hinit _ h.1
  | step hr hc hs ih =>
    obtain ⟨hs, hh⟩ := recorded_step_eq_some.mp hs
    rw [hh]
    exact hstep _ _ _ _ hr.of_recorded ih hc hs

end System

end DdingGameServer
