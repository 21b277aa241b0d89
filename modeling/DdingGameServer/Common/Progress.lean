import Mathlib.Data.Nat.Notation
import DdingGameServer.Common.System
import DdingGameServer.Common.Tally
/-!
# What a system can be brought to

`Leads own P s` says that events of one kind, `own`, lead from `s` to a state where `P` holds: the
threads asked about can get there by themselves, whatever the rest does. `leads_of_measure` proves
it from a measure and one step; `length_le_of_measure` bounds every run of such events where each of
them decreases the measure, so that no order of them goes on for ever. Where other events put
something on the measure, each at most its price, `countP_le_of_cost` bounds them by what was paid.
-/

namespace DdingGameServer

namespace System

universe u v

variable {S : Type u} {Ev : Type v} (sys : System S Ev)

/-- **Events of a kind lead to a property.** -/
def Leads (own : Ev → Prop) (P : S → Prop) (s : S) : Prop :=
  ∃ es s', (∀ e ∈ es, own e) ∧ sys.run s es = some s' ∧ P s'

variable {sys} {own : Ev → Prop} {P I : S → Prop} {s s' : S} {e : Ev} {es : List Ev}

theorem Leads.here (h : P s) : sys.Leads own P s :=
  ⟨[], s, fun _ he => absurd he List.not_mem_nil, rfl, h⟩

/-- One step more. -/
theorem Leads.step (he : own e) (hs : sys.step s e = some s') (h : sys.Leads own P s') :
    sys.Leads own P s := by
  obtain ⟨es, t, hes, hrun, hP⟩ := h
  exact ⟨e :: es, t, List.forall_mem_cons.mpr ⟨he, hes⟩, run_cons_eq_some.mpr ⟨s', hs, hrun⟩, hP⟩

/-- **Progress by a measure**: where some step of the kind is always there, which keeps the
invariant and arrives or decreases the measure, the kind leads there. -/
theorem leads_of_measure (μ : S → ℕ)
    (hstep : ∀ s, I s → ¬ P s → ∃ e s', own e ∧ sys.step s e = some s' ∧ I s' ∧
      (P s' ∨ μ s' < μ s)) (hs : I s) : sys.Leads own P s := by
  obtain ⟨m, hm⟩ : ∃ m, μ s = m := ⟨_, rfl⟩
  induction m using Nat.strongRecOn generalizing s with
  | ind m ih =>
    by_cases hP : P s
    · exact .here hP
    · obtain ⟨e, t, he, ht, hI, hless⟩ := hstep s hs hP
      refine .step he ht ?_
      rcases hless with hPt | hlt
      · exact .here hPt
      · exact ih _ (hm ▸ hlt) hI rfl

/-- **No order of steps goes on for ever** where each that is taken decreases the measure. -/
theorem Meets.length_le {C : S → Ev → Prop} (μ : S → ℕ)
    (hstep : ∀ s e s', I s → C s e → sys.step s e = some s' → I s' ∧ μ s' < μ s)
    (h : sys.Meets C s es) (hr : sys.run s es = some s') (hs : I s) : es.length + μ s' ≤ μ s := by
  induction es generalizing s with
  | nil =>
    obtain rfl : s = s' := by simpa using hr
    exact Nat.le_of_eq (Nat.zero_add _)
  | cons e es ih =>
    obtain ⟨t, ht, hrest⟩ := run_cons_eq_some.mp hr
    obtain ⟨hI, hlt⟩ := hstep s e t hs h.1 ht
    have := ih (h.2 t ht) hrest hI
    rw [List.length_cons]
    omega

/-- The same, for events of a kind. -/
theorem length_le_of_measure (μ : S → ℕ)
    (hstep : ∀ s e s', I s → own e → sys.step s e = some s' → I s' ∧ μ s' < μ s)
    (hs : I s) (hes : ∀ e ∈ es, own e) (hr : sys.run s es = some s') :
    es.length + μ s' ≤ μ s :=
  (meets_of_forall hes).length_le μ hstep hr hs

/-- **Steps that decrease a measure come to an end**: some run of them gets to where none is left. -/
theorem exists_stuck_of_measure {C : S → Ev → Prop} (μ : S → ℕ)
    (hstep : ∀ s e s', I s → C s e → sys.step s e = some s' → I s' ∧ μ s' < μ s) (hs : I s) :
    ∃ es s', sys.Meets C s es ∧ sys.run s es = some s' ∧ ∀ e, C s' e → sys.step s' e = none := by
  obtain ⟨m, hm⟩ : ∃ m, μ s = m := ⟨_, rfl⟩
  induction m using Nat.strongRecOn generalizing s with
  | ind m ih =>
    by_cases hstuck : ∀ e, C s e → sys.step s e = none
    · exact ⟨[], s, trivial, rfl, hstuck⟩
    · push Not at hstuck
      obtain ⟨e, hC, hne⟩ := hstuck
      obtain ⟨t, ht⟩ := Option.ne_none_iff_exists'.mp hne
      obtain ⟨hI, hlt⟩ := hstep s e t hs hC ht
      obtain ⟨es, s', hmeets, hr, hend⟩ := ih _ (hm ▸ hlt) hI rfl
      refine ⟨e :: es, s', ⟨hC, fun t' ht' => ?_⟩, run_cons_eq_some.mpr ⟨t, ht, hr⟩, hend⟩
      obtain rfl := step_unique ht ht'
      exact hmeets

/-- What a run costs, each step at its price in the state it is taken in. -/
def cost (sys : System S Ev) (price : S → Ev → ℕ) (s : S) : List Ev → ℕ
  | [] => 0
  | e :: es => price s e + (sys.step s e).elim 0 fun s' => cost sys price s' es

theorem cost_cons {price : S → Ev → ℕ} (h : sys.step s e = some s') :
    sys.cost price s (e :: es) = price s e + sys.cost price s' es := by
  rw [cost, h, Option.elim_some]

/-- **Steps of a kind are paid for**, where each takes one off the measure, and any step puts no
more on it than its price. -/
theorem countP_le_of_cost (μ : S → ℕ) (price : S → Ev → ℕ) (own : Ev → Bool)
    (hstep : ∀ s e s', I s → sys.step s e = some s' →
      I s' ∧ [e].countP own + μ s' ≤ μ s + price s e)
    (hs : I s) (hr : sys.run s es = some s') :
    I s' ∧ es.countP own + μ s' ≤ μ s + sys.cost price s es := by
  induction es generalizing s with
  | nil =>
    obtain rfl : s = s' := by simpa using hr
    exact ⟨hs, Nat.le_of_eq (Nat.zero_add _)⟩
  | cons e es ih =>
    obtain ⟨t, ht, hrest⟩ := run_cons_eq_some.mp hr
    obtain ⟨hI, hle⟩ := hstep s e t hs ht
    obtain ⟨hI', hle'⟩ := ih hI hrest
    refine ⟨hI', ?_⟩
    rw [List.countP_cons, cost_cons ht]
    simp only [List.countP_cons, List.countP_nil] at hle
    omega

/-- Where the price is of the event alone, the run costs what its events add up to. -/
theorem cost_eq_tally {price : Ev → ℕ} (hr : sys.run s es = some s') :
    sys.cost (fun _ => price) s es = tally price es := by
  induction es generalizing s with
  | nil => rfl
  | cons e es ih =>
    obtain ⟨t, ht, hrest⟩ := run_cons_eq_some.mp hr
    rw [cost_cons ht, ih hrest, tally_cons]

end System

end DdingGameServer
