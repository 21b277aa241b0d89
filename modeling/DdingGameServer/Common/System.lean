import Mathlib.Data.List.Basic
/-!
# Transition systems

A system is a predicate on initial states and a guarded, executable step: `step s e` is the state
event `e` leads to, and `none` where `e` is not enabled. A run is a list of events. A condition
on steps, `C : S → Ev → Prop`, is read in the state before each step: `Meets` asks it of every
step of a run, and `ReachableUnder` collects the states such runs reach. Nothing here is about
any particular program.
-/

namespace DdingGameServer

universe u v

/-- **A guarded transition system.** -/
structure System (S : Type u) (Ev : Type v) where
  Init : S → Prop
  step : S → Ev → Option S

namespace System

variable {S : Type u} {Ev : Type v} (sys : System S Ev)

/-- The state a list of events leads to, `none` where one of them is not enabled. -/
def run (s : S) : List Ev → Option S
  | [] => some s
  | e :: es => (sys.step s e).bind fun s' => run s' es

/-- Every step of the run satisfies `C` in the state before it. -/
def Meets (C : S → Ev → Prop) (s : S) : List Ev → Prop
  | [] => True
  | e :: es => C s e ∧ ∀ s', sys.step s e = some s' → Meets C s' es

/-- `P` holds in every state the run passes through. -/
def Throughout (P : S → Prop) (s : S) : List Ev → Prop
  | [] => P s
  | e :: es => P s ∧ ∀ s', sys.step s e = some s' → Throughout P s' es

/-- The states reached by runs every step of which satisfies `C`. -/
inductive ReachableUnder (C : S → Ev → Prop) : S → Prop
  | init {s : S} : sys.Init s → ReachableUnder C s
  | step {s s' : S} {e : Ev} : ReachableUnder C s → C s e → sys.step s e = some s' →
      ReachableUnder C s'

/-- The states reached by any run. -/
def Reachable (s : S) : Prop := sys.ReachableUnder (fun _ _ => True) s

variable {sys} {C D : S → Ev → Prop} {s s' : S} {e : Ev} {es es₁ es₂ : List Ev}

/-- An event leads to one state. -/
theorem step_unique {t t' : S} (h : sys.step s e = some t) (h' : sys.step s e = some t') :
    t = t' :=
  Option.some.inj (h.symm.trans h')

@[simp] theorem run_nil : sys.run s [] = some s := rfl

theorem run_cons : sys.run s (e :: es) = (sys.step s e).bind fun s' => sys.run s' es := rfl

/-- A run of one event and then a rest passes through the state between them. -/
theorem run_cons_eq_some :
    sys.run s (e :: es) = some s' ↔ ∃ t, sys.step s e = some t ∧ sys.run t es = some s' := by
  simp only [run_cons, Option.bind_eq_some_iff]

/-- And so does a run in two parts. -/
theorem run_append_eq_some :
    sys.run s (es₁ ++ es₂) = some s' ↔ ∃ t, sys.run s es₁ = some t ∧ sys.run t es₂ = some s' := by
  induction es₁ generalizing s with
  | nil => simp
  | cons e es₁ ih =>
    simp only [List.cons_append, run_cons_eq_some, ih]
    constructor
    · rintro ⟨t, ht, u, hu, hs⟩
      exact ⟨u, ⟨t, ht, hu⟩, hs⟩
    · rintro ⟨u, ⟨t, ht, hu⟩, hs⟩
      exact ⟨t, ht, u, hu, hs⟩

/-- The second part of a run meets what the whole meets. -/
theorem Meets.of_append (h : sys.Meets C s (es₁ ++ es₂)) (hr : sys.run s es₁ = some s') :
    sys.Meets C s' es₂ := by
  induction es₁ generalizing s with
  | nil =>
    obtain rfl : s = s' := by simpa using hr
    exact h
  | cons e es₁ ih =>
    obtain ⟨t, ht, hrest⟩ := run_cons_eq_some.mp hr
    exact ih (h.2 t ht) hrest

/-- So does the first. -/
theorem Meets.left_of_append (h : sys.Meets C s (es₁ ++ es₂)) : sys.Meets C s es₁ := by
  induction es₁ generalizing s with
  | nil => exact trivial
  | cons e es₁ ih => exact ⟨h.1, fun t ht => ih (h.2 t ht)⟩

/-- A run that meets a condition meets every weaker one. -/
theorem Meets.mono (hCD : ∀ s e, C s e → D s e) (h : sys.Meets C s es) : sys.Meets D s es := by
  induction es generalizing s with
  | nil => exact trivial
  | cons e es ih => exact ⟨hCD s e h.1, fun t ht => ih (h.2 t ht)⟩

/-- Two conditions met by a run are met together. -/
theorem Meets.and (hC : sys.Meets C s es) (hD : sys.Meets D s es) :
    sys.Meets (fun s e => C s e ∧ D s e) s es := by
  induction es generalizing s with
  | nil => exact trivial
  | cons e es ih => exact ⟨⟨hC.1, hD.1⟩, fun t ht => ih (hC.2 t ht) (hD.2 t ht)⟩

/-- What is asked of the events alone is met by a run of such events. -/
theorem meets_of_forall {q : Ev → Prop} (h : ∀ e ∈ es, q e) : sys.Meets (fun _ e => q e) s es := by
  induction es generalizing s with
  | nil => exact trivial
  | cons e es ih =>
    exact ⟨h e (List.mem_cons_self ..),
      fun t _ => ih fun e' he' => h e' (List.mem_cons_of_mem _ he')⟩

/-- A run that meets a condition under which every step is enabled runs to its end, through events
that satisfy what the condition asks of them. -/
theorem Meets.forall_mem {q : Ev → Prop} (hC : ∀ s e, C s e → q e ∧ ∃ s', sys.step s e = some s')
    (h : sys.Meets C s es) : ∀ e ∈ es, q e := by
  induction es generalizing s with
  | nil => intro e he; cases he
  | cons e es ih =>
    obtain ⟨hq, t, ht⟩ := hC s e h.1
    intro e' he'
    rcases List.mem_cons.mp he' with rfl | he'
    · exact hq
    · exact ih (h.2 t ht) e' he'

/-- A run to its end meets what is asked of the events alone exactly where they satisfy it. -/
theorem meets_forall_iff {q : Ev → Prop} (hr : sys.run s es = some s') :
    sys.Meets (fun _ e => q e) s es ↔ ∀ e ∈ es, q e := by
  refine ⟨fun h => ?_, meets_of_forall⟩
  induction es generalizing s with
  | nil => intro e he; cases he
  | cons e es ih =>
    obtain ⟨t, ht, hrest⟩ := run_cons_eq_some.mp hr
    exact List.forall_mem_cons.mpr ⟨h.1, ih hrest (h.2 t ht)⟩

/-- **The invariant rule along a run.** What every step under `C` preserves holds at the end of
a run that meets `C` from a state where it holds. -/
theorem Meets.invariant {P : S → Prop}
    (hstep : ∀ s e s', P s → C s e → sys.step s e = some s' → P s')
    (h : sys.Meets C s es) (hr : sys.run s es = some s') (hs : P s) : P s' := by
  induction es generalizing s with
  | nil =>
    obtain rfl : s = s' := by simpa using hr
    exact hs
  | cons e es ih =>
    obtain ⟨t, ht, hrest⟩ := run_cons_eq_some.mp hr
    exact ih (h.2 t ht) hrest (hstep s e t hs h.1 ht)

/-- **What a run owes to an invariant.** Where `P` is kept and makes `C` imply `D`, a run that meets
`C` meets `D`. -/
theorem Meets.of_invariant {P : S → Prop}
    (hstep : ∀ s e s', P s → C s e → sys.step s e = some s' → P s')
    (hD : ∀ s e, P s → C s e → D s e) (h : sys.Meets C s es) (hs : P s) : sys.Meets D s es := by
  induction es generalizing s with
  | nil => exact trivial
  | cons e es ih => exact ⟨hD s e hs h.1, fun t ht => ih (h.2 t ht) (hstep s e t hs h.1 ht)⟩

/-- **Two conditions that an invariant makes equivalent** are met by the same runs. -/
theorem meets_congr {P : S → Prop} (hstep : ∀ s e s', P s → sys.step s e = some s' → P s')
    (hCD : ∀ s e, P s → (C s e ↔ D s e)) (hs : P s) : sys.Meets C s es ↔ sys.Meets D s es :=
  ⟨fun h => h.of_invariant (fun s e s' hp _ => hstep s e s' hp) (fun s e hp => (hCD s e hp).mp) hs,
    fun h => h.of_invariant (fun s e s' hp _ => hstep s e s' hp)
      (fun s e hp => (hCD s e hp).mpr) hs⟩

/-- **Two conditions that agree along a run.** What the invariant `P` makes equivalent at every step
is met together. -/
theorem Meets.congr {E : S → Ev → Prop} {P : S → Prop}
    (hstep : ∀ s e s', P s → E s e → sys.step s e = some s' → P s' ∧ (C s e ↔ D s e))
    (h : sys.Meets E s es) (hr : sys.run s es = some s') (hs : P s) :
    sys.Meets C s es ↔ sys.Meets D s es := by
  induction es generalizing s with
  | nil => exact Iff.rfl
  | cons e es ih =>
    obtain ⟨t, ht, hrest⟩ := run_cons_eq_some.mp hr
    obtain ⟨hP, hCD⟩ := hstep s e t hs h.1 ht
    refine and_congr hCD (forall_congr' fun t' => forall_congr' fun ht' => ?_)
    obtain rfl := step_unique ht ht'
    exact ih (h.2 t ht) hrest hP

/-- **What is kept exactly by the steps that meet a condition** holds at the end of a run exactly
where it held before and every step met the condition. -/
theorem holds_iff_meets {P I : S → Prop}
    (hI : ∀ s e s', I s → sys.step s e = some s' → I s')
    (hP : ∀ s e s', I s → sys.step s e = some s' → (P s' ↔ P s ∧ C s e))
    (hr : sys.run s es = some s') (hs : I s) : P s' ↔ P s ∧ sys.Meets C s es := by
  induction es generalizing s with
  | nil =>
    obtain rfl : s = s' := by simpa using hr
    exact (and_iff_left trivial).symm
  | cons e es ih =>
    obtain ⟨t, ht, hrest⟩ := run_cons_eq_some.mp hr
    rw [ih hrest (hI s e t hs ht), hP s e t hs ht, and_assoc]
    refine and_congr_right fun _ => and_congr_right fun _ =>
      ⟨fun hm t' ht' => ?_, fun hm => hm t ht⟩
    obtain rfl := step_unique ht ht'
    exact hm

theorem Throughout.head {P : S → Prop} (h : sys.Throughout P s es) : P s := by
  cases es with
  | nil => exact h
  | cons e es => exact h.1

/-- **What a run keeps throughout**, among the runs that meet `E`. Where the steps from `P` to `P`
are those that meet `C`, such a run from `P` passes through states of `P` only exactly where every
step meets `C`. -/
theorem Meets.throughout_iff {E : S → Ev → Prop} {P I : S → Prop}
    (hI : ∀ s e s', I s → sys.step s e = some s' → I s')
    (hP : ∀ s e s', I s → P s → E s e → sys.step s e = some s' → (P s' ↔ C s e))
    (h : sys.Meets E s es) (hr : sys.run s es = some s') (hs : I s) (hp : P s) :
    sys.Throughout P s es ↔ sys.Meets C s es := by
  induction es generalizing s with
  | nil => exact ⟨fun _ => trivial, fun _ => hp⟩
  | cons e es ih =>
    obtain ⟨t, ht, hrest⟩ := run_cons_eq_some.mp hr
    have hnext := hP s e t hs hp h.1 ht
    constructor
    · rintro ⟨-, hthrough⟩
      have htail := hthrough t ht
      refine ⟨hnext.mp htail.head, fun t' ht' => ?_⟩
      obtain rfl := step_unique ht ht'
      exact (ih (h.2 t ht) hrest (hI s e t hs ht) htail.head).mp htail
    · rintro ⟨hc, hmeets⟩
      refine ⟨hp, fun t' ht' => ?_⟩
      obtain rfl := step_unique ht ht'
      exact (ih (h.2 t ht) hrest (hI s e t hs ht) (hnext.mpr hc)).mpr (hmeets t ht)

/-- A run whose condition asks nothing meets it. -/
theorem meets_true : sys.Meets (fun _ _ => True) s es := by
  induction es generalizing s with
  | nil => exact trivial
  | cons e es ih => exact ⟨trivial, fun _ _ => ih⟩

/-- What a run keeps throughout, among all of them. -/
theorem throughout_iff_meets {P I : S → Prop}
    (hI : ∀ s e s', I s → sys.step s e = some s' → I s')
    (hP : ∀ s e s', I s → P s → sys.step s e = some s' → (P s' ↔ C s e))
    (hr : sys.run s es = some s') (hs : I s) (hp : P s) :
    sys.Throughout P s es ↔ sys.Meets C s es :=
  meets_true.throughout_iff hI (fun s e s' hi hp _ => hP s e s' hi hp) hr hs hp

/-- **The first step that fails a condition.** A run that does not meet `C` splits at the first
event violating it, and the part before meets `C`. -/
theorem exists_first_unmet (h : ¬ sys.Meets C s es) (hr : sys.run s es = some s') :
    ∃ es₁ e es₂ t u, es = es₁ ++ e :: es₂ ∧ sys.run s es₁ = some t ∧ sys.Meets C s es₁ ∧
      ¬ C t e ∧ sys.step t e = some u ∧ sys.run u es₂ = some s' := by
  induction es generalizing s with
  | nil => exact absurd trivial h
  | cons e es ih =>
    obtain ⟨t, ht, hrest⟩ := run_cons_eq_some.mp hr
    by_cases hC : C s e
    · have hnot : ¬ sys.Meets C t es := by
        intro hm
        refine h ⟨hC, fun t' ht' => ?_⟩
        obtain rfl := step_unique ht ht'
        exact hm
      obtain ⟨es₁, e', es₂, t', u, rfl, hr₁, hm, hn, hu, hr₂⟩ := ih hnot hrest
      refine ⟨e :: es₁, e', es₂, t', u, rfl, ?_, ⟨hC, fun t'' ht'' => ?_⟩, hn, hu, hr₂⟩
      · exact run_cons_eq_some.mpr ⟨t, ht, hr₁⟩
      · obtain rfl := step_unique ht ht''
        exact hm
    · exact ⟨[], e, es, s, t, rfl, rfl, trivial, hC, ht, hrest⟩

/-- **The invariant rule.** What holds initially and is preserved by every step under `C` holds
of every state reachable under `C`. -/
theorem ReachableUnder.invariant {P : S → Prop} (hinit : ∀ s, sys.Init s → P s)
    (hstep : ∀ s e s', P s → C s e → sys.step s e = some s' → P s')
    (h : sys.ReachableUnder C s) : P s := by
  induction h with
  | init h => exact hinit _ h
  | step _ hc hs ih => exact hstep _ _ _ ih hc hs

/-- A weaker condition reaches more. -/
theorem ReachableUnder.mono (hCD : ∀ s e, C s e → D s e) (h : sys.ReachableUnder C s) :
    sys.ReachableUnder D s := by
  induction h with
  | init h => exact .init h
  | step _ hc hs ih => exact .step ih (hCD _ _ hc) hs

theorem ReachableUnder.reachable (h : sys.ReachableUnder C s) : sys.Reachable s :=
  h.mono fun _ _ _ => trivial

/-- A run from a reachable state that meets `C` ends in a reachable state. -/
theorem ReachableUnder.of_run (h : sys.ReachableUnder C s) (hm : sys.Meets C s es)
    (hr : sys.run s es = some s') : sys.ReachableUnder C s' :=
  Meets.invariant (P := sys.ReachableUnder C) (fun _ _ _ ih hc hs => .step ih hc hs) hm hr h

theorem reachable_of_run (h : sys.Init s) (hr : sys.run s es = some s') : sys.Reachable s' :=
  ReachableUnder.of_run (.init h) meets_true hr

/-! ## Runs that are evaluated -/

/-- **A state with a given property is reached**, by evaluating one run. -/
theorem exists_reachable (sys : System S Ev) (es : List Ev) {f : S → Bool} (h : sys.Init s)
    (hr : (sys.run s es).any f = true) : ∃ s', sys.Reachable s' ∧ f s' = true := by
  obtain ⟨s', hs', hf⟩ := (Option.any_eq_true _ _).mp hr
  exact ⟨s', reachable_of_run h hs', hf⟩

/-- The run of `es` from `s`, stopped at a step that fails `c`. -/
def runUnder (sys : System S Ev) (c : S → Ev → Bool) (s : S) : List Ev → Option S
  | [] => some s
  | e :: es => if c s e then (sys.step s e).bind fun s' => runUnder sys c s' es else none

theorem runUnder_eq_some {c : S → Ev → Bool} (hr : sys.runUnder c s es = some s') :
    sys.Meets (fun s e => c s e = true) s es ∧ sys.run s es = some s' := by
  induction es generalizing s with
  | nil => exact ⟨trivial, hr⟩
  | cons e es ih =>
    rw [runUnder] at hr
    split at hr
    · rename_i hc
      obtain ⟨t, ht, hrest⟩ := Option.bind_eq_some_iff.mp hr
      obtain ⟨hm, hrun⟩ := ih hrest
      refine ⟨⟨hc, fun t' ht' => ?_⟩, run_cons_eq_some.mpr ⟨t, ht, hrun⟩⟩
      obtain rfl := step_unique ht ht'
      exact hm
    · cases hr

/-- **A run that meets a condition and ends in a given property**, by evaluating it. -/
theorem exists_run (sys : System S Ev) (es : List Ev) {c : S → Ev → Bool} {f : S → Bool}
    (hr : (sys.runUnder c s es).any f = true) :
    ∃ s', sys.Meets (fun s e => c s e = true) s es ∧ sys.run s es = some s' ∧ f s' = true := by
  obtain ⟨s', hs', hf⟩ := (Option.any_eq_true _ _).mp hr
  obtain ⟨hm, hrun⟩ := runUnder_eq_some hs'
  exact ⟨s', hm, hrun, hf⟩

/-- And so is a state reached under the condition. -/
theorem exists_reachableUnder (sys : System S Ev) (es : List Ev) {c : S → Ev → Bool}
    {f : S → Bool} (h : sys.Init s) (hr : (sys.runUnder c s es).any f = true) :
    ∃ s', sys.ReachableUnder (fun s e => c s e = true) s' ∧ f s' = true := by
  obtain ⟨s', hm, hrun, hf⟩ := exists_run sys es hr
  exact ⟨s', ReachableUnder.of_run (.init h) hm hrun, hf⟩

end System

end DdingGameServer
