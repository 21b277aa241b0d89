import DdingGameServer.Common.Progress
/-!
# Scoped locks

What a program does with locks, where every lock is held for the length of a block: sequences,
branches, loops and sections under a lock, shared or exclusive. Threads run such programs over locks
that let in one writer or any number of readers; whether a further reader is let in is left to the
lock, which may hold it back because a writer waits.

A program that takes its locks in the order of a rank is `ordered`, which is decided on its text.
Threads that run ordered programs do not wait for each other in a circle (`exists_free`), so where
no loop goes round any more they get to their end, in whatever order they go on (`finishes`). A
thread that has to take a lock inside an exclusive section of the same lock gets no further, and
neither does anybody else who has to take that lock (`not_done_of_doomed`). Nothing here is about
any particular program.
-/

namespace DdingGameServer

namespace ScopedLocks

universe u

inductive LockMode
  | shared
  | exclusive
  deriving DecidableEq, Repr

/-- **A program, as far as it concerns locks.** -/
inductive Code (L : Type u)
  | skip
  | seq (p q : Code L)
  | choose (p q : Code L)
  | loop (p : Code L)
  | scope (l : L) (mode : LockMode) (p : Code L)

/-- What a thread still has to do: run a program, or leave a section. -/
inductive Item (L : Type u)
  | code (p : Code L)
  | unlock (l : L) (mode : LockMode)

/-- A thread is the stack of what it still has to do. -/
abbrev Thread (L : Type u) := List (Item L)

variable {L : Type u}

/-! ## Threads and their steps -/

/-- The section an item ends. -/
def Item.section? : Item L → Option (L × LockMode)
  | .code _ => none
  | .unlock l mode => some (l, mode)

/-- **The locks a thread holds**, those it took last in front. -/
def held (t : Thread L) : List (L × LockMode) := t.filterMap Item.section?

/-- A lock that is held in the modes `modes` lets in one more. `answer` is the lock's own choice
where readers meet. -/
def grants (answer : Bool) (mode : LockMode) (modes : List LockMode) : Bool :=
  modes.isEmpty || (answer && mode == .shared && modes.all (· == .shared))

/-- **What an item leads to**, where `modes l` are the modes in which `l` is held. `answer` is the
branch that is taken, whether a loop goes on, and the choice of a lock. -/
def expand (modes : L → List LockMode) (answer : Bool) : Item L → Option (List (Item L))
  | .unlock _ _ => some []
  | .code .skip => some []
  | .code (.seq p q) => some [.code p, .code q]
  | .code (.choose p q) => some [.code (if answer then p else q)]
  | .code (.loop p) => some (if answer then [.code p, .code (.loop p)] else [])
  | .code (.scope l mode p) =>
    if grants answer mode (modes l) then some [.code p, .unlock l mode] else none

/-- **One step of a thread.** -/
def advance (modes : L → List LockMode) (answer : Bool) : Thread L → Option (Thread L)
  | [] => none
  | item :: t => (expand modes answer item).map (· ++ t)

/-- The modes in which the threads hold a lock. -/
def heldModes [DecidableEq L] (s : List (Thread L)) (l : L) : List LockMode :=
  (s.flatMap held).filterMap fun h => if h.1 = l then some h.2 else none

/-- **Threads that run programs over common locks.** An event is a thread and an answer. -/
def threads [DecidableEq L] (ps : List (Code L)) : System (List (Thread L)) (ℕ × Bool) where
  Init s := s = ps.map fun p => [.code p]
  step s e := s[e.1]?.bind fun t => (advance (heldModes s) e.2 t).map fun t' => s.set e.1 t'

/-- Every thread is at its end. -/
def Done (s : List (Thread L)) : Prop := ∀ t ∈ s, t = []

variable {rank : L → ℕ} {modes : L → List LockMode} {answer : Bool} {mode : LockMode} {l : L}
  {p q : Code L} {ps : List (Code L)} {item : Item L} {items : List (Item L)} {t t' : Thread L}
  {s s' : List (Thread L)} {e : ℕ × Bool} {es : List (ℕ × Bool)} {i : ℕ}

theorem advance_cons_eq_some : advance modes answer (item :: t) = some t' ↔
    ∃ items, expand modes answer item = some items ∧ t' = items ++ t := by
  rw [advance, Option.map_eq_some_iff]
  exact exists_congr fun items => and_congr_right fun _ => eq_comm

/-- A step of the threads is the step of one of them. -/
theorem step_eq_some [DecidableEq L] : (threads ps).step s e = some s' ↔
    ∃ t t', s[e.1]? = some t ∧ advance (heldModes s) e.2 t = some t' ∧ s' = s.set e.1 t' := by
  simp only [threads, Option.bind_eq_some_iff, Option.map_eq_some_iff]
  constructor
  · rintro ⟨t, ht, t', ht', rfl⟩
    exact ⟨t, t', ht, ht', rfl⟩
  · rintro ⟨t, t', ht, ht', rfl⟩
    exact ⟨t, ht, t', ht', rfl⟩

theorem mem_heldModes [DecidableEq L] : mode ∈ heldModes s l ↔ ∃ t ∈ s, (l, mode) ∈ held t := by
  simp only [heldModes, List.mem_filterMap, List.mem_flatMap]
  constructor
  · rintro ⟨⟨l', mode'⟩, ⟨t, ht, hmem⟩, hsome⟩
    split at hsome
    · rename_i heq
      obtain rfl := Option.some.inj hsome
      exact ⟨t, ht, heq ▸ hmem⟩
    · cases hsome
  · rintro ⟨t, ht, hmem⟩
    exact ⟨(l, mode), ⟨t, ht, hmem⟩, if_pos rfl⟩

/-- A lock that nobody holds lets everybody in. -/
theorem grants_nil : grants answer mode [] = true := rfl

/-- A lock that is held lets in readers beside readers only. -/
theorem grants_cases {modes : List LockMode} (h : grants answer mode modes = true) :
    modes = [] ∨ mode = .shared ∧ ∀ mode' ∈ modes, mode' = .shared := by
  simp only [grants, Bool.or_eq_true, Bool.and_eq_true, List.isEmpty_iff, beq_iff_eq,
    List.all_eq_true] at h
  exact h.imp id fun h => ⟨h.1.2, h.2⟩

/-! ## Locks taken in an order -/

/-- **The locks are taken in the order of their rank**, from rank `n` on. -/
def Code.ordered (rank : L → ℕ) : Code L → ℕ → Bool
  | .skip, _ => true
  | .seq p q, n => p.ordered rank n && q.ordered rank n
  | .choose p q, n => p.ordered rank n && q.ordered rank n
  | .loop p, n => p.ordered rank n
  | .scope l _ p, n => decide (n ≤ rank l) && p.ordered rank (rank l + 1)

/-- The rank from which a thread may take further locks. -/
def level (rank : L → ℕ) : Thread L → ℕ
  | [] => 0
  | .code _ :: t => level rank t
  | .unlock l _ :: _ => rank l + 1

/-- A thread that keeps the order from here on. -/
def Ordered (rank : L → ℕ) : Thread L → Prop
  | [] => True
  | .code p :: t => p.ordered rank (level rank t) = true ∧ Ordered rank t
  | .unlock l _ :: t => level rank t ≤ rank l ∧ Ordered rank t

/-- What it holds is below its level. -/
theorem Ordered.rank_lt (h : Ordered rank t) (hl : (l, mode) ∈ held t) : rank l < level rank t := by
  induction t with
  | nil => cases hl
  | cons item t ih =>
    cases item with
    | code p => exact ih h.2 hl
    | unlock l' mode' =>
      rcases List.mem_cons.mp hl with heq | hl
      · obtain ⟨rfl, rfl⟩ := Prod.mk.inj heq
        exact Nat.lt_succ_self _
      · exact Nat.lt_succ_of_lt (Nat.lt_of_lt_of_le (ih h.2 hl) h.1)

/-- **A step keeps the order.** -/
theorem Ordered.expand (h : Ordered rank (item :: t)) (hi : expand modes answer item = some items) :
    Ordered rank (items ++ t) := by
  cases item with
  | unlock l mode =>
    obtain rfl := Option.some.inj hi
    exact h.2
  | code p =>
    cases p with
    | skip =>
      obtain rfl := Option.some.inj hi
      exact h.2
    | seq p q =>
      obtain rfl := Option.some.inj hi
      obtain ⟨hp, hq⟩ := Bool.and_eq_true_iff.mp h.1
      exact ⟨hp, hq, h.2⟩
    | choose p q =>
      obtain rfl := Option.some.inj hi
      obtain ⟨hp, hq⟩ := Bool.and_eq_true_iff.mp h.1
      refine ⟨?_, h.2⟩
      cases answer with
      | false => exact hq
      | true => exact hp
    | loop p =>
      obtain rfl := Option.some.inj hi
      cases answer with
      | false => exact h.2
      | true => exact ⟨h.1, h⟩
    | scope l mode p =>
      obtain ⟨hle, hp⟩ := Bool.and_eq_true_iff.mp h.1
      simp only [ScopedLocks.expand] at hi
      split at hi
      · obtain rfl := Option.some.inj hi
        exact ⟨hp, of_decide_eq_true hle, h.2⟩
      · cases hi

/-- Every thread keeps the order. -/
def AllOrdered (rank : L → ℕ) (s : List (Thread L)) : Prop := ∀ t ∈ s, Ordered rank t

theorem AllOrdered.step [DecidableEq L] (h : AllOrdered rank s)
    (hs : (threads ps).step s e = some s') : AllOrdered rank s' := by
  obtain ⟨t, t', hi, ht, rfl⟩ := step_eq_some.mp hs
  intro u hu
  rcases List.mem_or_eq_of_mem_set hu with hu | rfl
  · exact h u hu
  · cases t with
    | nil => cases ht
    | cons item t =>
      obtain ⟨items, hitems, rfl⟩ := advance_cons_eq_some.mp ht
      exact (h _ (List.mem_of_getElem? hi)).expand hitems

/-- **Ordered programs stay ordered**, in every reachable state. -/
theorem allOrdered_of_reachable [DecidableEq L] (hps : ∀ p ∈ ps, p.ordered rank 0 = true)
    (h : (threads ps).Reachable s) : AllOrdered rank s := by
  refine System.ReachableUnder.invariant (fun s hs => ?_) (fun s e s' hP _ hs => hP.step hs) h
  obtain rfl : s = ps.map fun p => [.code p] := hs
  intro t ht
  obtain ⟨p, hp, rfl⟩ := List.mem_map.mp ht
  exact ⟨hps p hp, trivial⟩

/-! ## Progress -/

/-- The lock a thread is about to take. -/
def wants : Thread L → Option L
  | .code (.scope l _ _) :: _ => some l
  | _ => none

/-- A thread that is about to take no lock moves on, -/
theorem isSome_advance_of_wants (hne : t ≠ []) (hwants : wants t = none) :
    (advance modes answer t).isSome = true := by
  match t with
  | [] => exact absurd rfl hne
  | .unlock _ _ :: _ | .code .skip :: _ | .code (.seq _ _) :: _ | .code (.choose _ _) :: _
  | .code (.loop _) :: _ => rfl
  | .code (.scope _ _ _) :: _ => cases hwants

/-- and so does one that is about to take a lock nobody holds. -/
theorem isSome_advance_of_free (hwants : wants t = some l) (hfree : modes l = []) :
    (advance modes answer t).isSome = true := by
  match t with
  | .code (.scope l' mode p) :: t =>
    obtain rfl := Option.some.inj hwants
    simp only [advance, expand, hfree, grants_nil, if_true, Option.map_some, Option.isSome_some]
  | [] | .unlock _ _ :: _ | .code .skip :: _ | .code (.seq _ _) :: _ | .code (.choose _ _) :: _
  | .code (.loop _) :: _ => cases hwants

/-- Whoever holds a lock and waits for another waits for one of a higher rank. -/
theorem Ordered.rank_lt_of_wants (h : Ordered rank t) {l' : L} (hwants : wants t = some l')
    (hl : (l, mode) ∈ held t) : rank l < rank l' := by
  match t, h with
  | .code (.scope l'' mode'' p) :: t, h =>
    obtain rfl := Option.some.inj hwants
    have hle : level rank t ≤ rank l'' := of_decide_eq_true (Bool.and_eq_true_iff.mp h.1).1
    exact Nat.lt_of_lt_of_le (h.2.rank_lt hl) hle
  | [], _ | .unlock _ _ :: _, _ | .code .skip :: _, _ | .code (.seq _ _) :: _, _
  | .code (.choose _ _) :: _, _ | .code (.loop _) :: _, _ => cases hwants

/-- **Somebody can always move**: of threads that keep the order, one that is not at its end can
take its next step whatever the locks answer. A circle of waiting threads would need a lock of the
largest rank among those waited for to be held by a thread that waits for a larger one. -/
theorem exists_free [DecidableEq L] (h : AllOrdered rank s) (hdone : ¬ Done s) :
    ∃ (i : ℕ) (t : Thread L), s[i]? = some t ∧
      ∀ answer, (advance (heldModes s) answer t).isSome = true := by
  by_contra hstuck
  push Not at hstuck
  -- every thread that is not at its end waits for a lock that is held
  have hwaits : ∀ t ∈ s, t ≠ [] → ∃ l, wants t = some l ∧ heldModes s l ≠ [] := by
    intro t ht hne
    obtain ⟨i, hi⟩ := List.mem_iff_getElem?.mp ht
    obtain ⟨answer, hblocked⟩ := hstuck i t hi
    cases hwants : wants t with
    | none => exact absurd (isSome_advance_of_wants hne hwants) hblocked
    | some l => exact ⟨l, rfl, fun hfree => hblocked (isSome_advance_of_free hwants hfree)⟩
  -- so there is no bound on the ranks waited for
  have hunbounded : ∀ n, ∃ t ∈ s, ∃ l, wants t = some l ∧ n ≤ rank l := by
    intro n
    induction n with
    | zero =>
      obtain ⟨t, ht, hne⟩ : ∃ t ∈ s, t ≠ [] := by
        by_contra hnone
        push Not at hnone
        exact hdone hnone
      obtain ⟨l, hl, -⟩ := hwaits t ht hne
      exact ⟨t, ht, l, hl, Nat.zero_le _⟩
    | succ n ih =>
      obtain ⟨t, ht, l, hl, hle⟩ := ih
      have hne : t ≠ [] := by
        rintro rfl
        cases hl
      obtain ⟨l₁, hl₁, hheld⟩ := hwaits t ht hne
      obtain rfl := Option.some.inj (hl.symm.trans hl₁)
      obtain ⟨mode, hmode⟩ := List.exists_mem_of_ne_nil _ hheld
      obtain ⟨t', ht', hmem⟩ := mem_heldModes.mp hmode
      have hne' : t' ≠ [] := by
        rintro rfl
        cases hmem
      obtain ⟨l', hl', -⟩ := hwaits t' ht' hne'
      have hlt := (h t' ht').rank_lt_of_wants hl' hmem
      exact ⟨t', ht', l', hl', by omega⟩
  -- but only finitely many locks are waited for
  have hbounded : ∃ n, ∀ t ∈ s, ∀ l, wants t = some l → rank l < n := by
    refine ⟨((s.filterMap wants).map rank).max?.getD 0 + 1, fun t ht l hl => ?_⟩
    have hmem : rank l ∈ (s.filterMap wants).map rank :=
      List.mem_map_of_mem (List.mem_filterMap.mpr ⟨t, ht, hl⟩)
    exact Nat.lt_succ_of_le (List.le_max?_getD_of_mem hmem)
  obtain ⟨n, hn⟩ := hbounded
  obtain ⟨t, ht, l, hl, hle⟩ := hunbounded n
  exact absurd (hn t ht l hl) (by omega)

/-! ## Running to the end -/

/-- A bound on the steps of a program whose loops are left at once. -/
def Code.size : Code L → ℕ
  | .skip => 1
  | .seq p q => p.size + q.size + 1
  | .choose p q => p.size + q.size + 1
  | .loop p => p.size + 1
  | .scope _ _ p => p.size + 2

def Item.size : Item L → ℕ
  | .code p => p.size
  | .unlock _ _ => 1

/-- What the threads still have to do at most, if they leave their loops. -/
def size (s : List (Thread L)) : ℕ := tally (tally Item.size) s

/-- Goes round a loop, if it is answered yes. -/
def Item.loops : Item L → Bool
  | .code (.loop _) => true
  | _ => false

/-- **The step takes no loop round again**, whatever else is decided in it. -/
def Leaves (s : List (Thread L)) (e : ℕ × Bool) : Prop :=
  ∀ item t, s[e.1]? = some (item :: t) → item.loops = true → e.2 = false

/-- **A step towards the end**: an item leads to less than it was, unless a loop goes round. -/
theorem tally_size_expand_lt (h : expand modes answer item = some items)
    (hleaves : item.loops = true → answer = false) : tally Item.size items < item.size := by
  cases item with
  | unlock l mode =>
    obtain rfl := Option.some.inj h
    exact Nat.one_pos
  | code p =>
    cases p with
    | loop p =>
      obtain rfl := hleaves rfl
      obtain rfl := Option.some.inj h
      simp only [tally_nil, Item.size, Code.size, if_neg Bool.false_ne_true]
      omega
    | skip | seq p q =>
      obtain rfl := Option.some.inj h
      simp only [tally_cons, tally_nil, Item.size, Code.size]
      omega
    | choose p q =>
      obtain rfl := Option.some.inj h
      simp only [tally_cons, tally_nil, Item.size, Code.size]
      split <;> omega
    | scope l mode p =>
      simp only [expand] at h
      split at h
      · obtain rfl := Option.some.inj h
        simp only [tally_cons, tally_nil, Item.size, Code.size]
        omega
      · cases h

theorem size_step_lt [DecidableEq L] (hleaves : Leaves s e)
    (hs : (threads ps).step s e = some s') : size s' < size s := by
  obtain ⟨t, t', hi, ht', rfl⟩ := step_eq_some.mp hs
  cases t with
  | nil => cases ht'
  | cons item t =>
    obtain ⟨items, hitems, rfl⟩ := advance_cons_eq_some.mp ht'
    have hitem := tally_size_expand_lt hitems (hleaves item t hi)
    have hset := tally_set (f := tally Item.size) (b := items ++ t) hi
    rw [tally_append, tally_cons] at hset
    simp only [size]
    omega

/-- Threads that can take no step but round a loop are at their end. -/
theorem done_of_stuck [DecidableEq L] (h : AllOrdered rank s)
    (hstuck : ∀ e, Leaves s e → (threads ps).step s e = none) : Done s := by
  by_contra hdone
  obtain ⟨i, t, hi, hfree⟩ := exists_free h hdone
  obtain ⟨t', ht'⟩ := Option.isSome_iff_exists.mp (hfree false)
  have hnone := hstuck (i, false) fun _ _ _ _ => rfl
  rw [step_eq_some.mpr ⟨t, t', hi, ht', rfl⟩] at hnone
  cases hnone

/-- **Threads that keep the order and leave their loops get to their end**, in whatever order they
go on and whatever is decided: some run of such steps gets there, there are never more of them than
so many, and where none is left all threads are at their end. -/
theorem finishes [DecidableEq L] (h : AllOrdered rank s) :
    (∃ es s', (threads ps).Meets Leaves s es ∧ (threads ps).run s es = some s' ∧ Done s') ∧
      ∀ es s', (threads ps).Meets Leaves s es → (threads ps).run s es = some s' →
        es.length ≤ size s ∧
          ((∀ e, Leaves s' e → (threads ps).step s' e = none) → Done s') := by
  have hstep : ∀ s e s', AllOrdered rank s → Leaves s e → (threads ps).step s e = some s' →
      AllOrdered rank s' ∧ size s' < size s :=
    fun _ _ _ h hleaves hs => ⟨h.step hs, size_step_lt hleaves hs⟩
  have hkept : ∀ {es s'}, (threads ps).Meets Leaves s es → (threads ps).run s es = some s' →
      AllOrdered rank s' := fun hes hr =>
    hes.invariant (P := AllOrdered rank) (fun _ _ _ h _ hs => h.step hs) hr h
  refine ⟨?_, fun es s' hes hr => ⟨?_, done_of_stuck (hkept hes hr)⟩⟩
  · obtain ⟨es, s', hes, hr, hstuck⟩ := System.exists_stuck_of_measure size hstep h
    exact ⟨es, s', hes, hr, done_of_stuck (hkept hes hr) hstuck⟩
  · have := hes.length_le size hstep hr h
    omega

/-! ## Mutual exclusion -/

/-- How often the threads hold a lock in a mode. -/
def holds [DecidableEq L] (l : L) (mode : LockMode) (s : List (Thread L)) : ℕ :=
  tally (fun t => (held t).count (l, mode)) s

/-- **One writer or any number of readers.** -/
def Excludes [DecidableEq L] (s : List (Thread L)) : Prop :=
  ∀ l, holds l .exclusive s ≤ 1 ∧ (holds l .exclusive s = 0 ∨ holds l .shared s = 0)

/-- What an item leads to holds what it held, less the section it ends or with the one it begins. -/
theorem held_expand (h : expand modes answer item = some items) :
    held items = [] ∨ ∃ l mode, held items = [(l, mode)] ∧ item.section? = none ∧
      grants answer mode (modes l) = true := by
  cases item with
  | unlock l mode =>
    obtain rfl := Option.some.inj h
    exact .inl rfl
  | code p =>
    cases p with
    | skip | seq p q | choose p q =>
      obtain rfl := Option.some.inj h
      exact .inl rfl
    | loop p =>
      obtain rfl := Option.some.inj h
      cases answer with
      | false | true => exact .inl rfl
    | scope l mode p =>
      simp only [expand] at h
      split at h
      · rename_i hgrants
        obtain rfl := Option.some.inj h
        exact .inr ⟨l, mode, rfl, rfl, hgrants⟩
      · cases h

/-- A lock nobody has in a mode is counted as such. -/
theorem holds_eq_zero [DecidableEq L] : holds l mode s = 0 ↔ mode ∉ heldModes s l := by
  rw [holds, tally_eq_zero, mem_heldModes, not_exists]
  exact forall_congr' fun t => by rw [List.count_eq_zero, not_and]

/-- **A step lets in nobody beside a writer.** -/
theorem Excludes.step [DecidableEq L] (h : Excludes s) (hs : (threads ps).step s e = some s') :
    Excludes s' := by
  obtain ⟨t, t', hi, ht, rfl⟩ := step_eq_some.mp hs
  cases t with
  | nil => cases ht
  | cons item t =>
    obtain ⟨items, hitems, rfl⟩ := advance_cons_eq_some.mp ht
    intro l
    have hset (mode : LockMode) : holds l mode (s.set e.1 (items ++ t)) +
        (held [item]).count (l, mode) = holds l mode s + (held items).count (l, mode) := by
      have hmoved := tally_set (f := fun t => (held t).count (l, mode)) (b := items ++ t) hi
      have hcons : held (item :: t) = held [item] ++ held t := List.filterMap_append (l := [item])
      have happend : held (items ++ t) = held items ++ held t := List.filterMap_append
      rw [hcons, happend, List.count_append, List.count_append] at hmoved
      rw [holds, holds]
      omega
    obtain ⟨hone, hapart⟩ := h l
    have hex := hset .exclusive
    have hsh := hset .shared
    rcases held_expand hitems with hnil | ⟨l', mode, hheld, hsection, hgrants⟩
    · rw [hnil, List.count_nil] at hex hsh
      omega
    · by_cases hl : l' = l
      · subst hl
        rw [hheld, List.count_singleton] at hex hsh
        rcases grants_cases hgrants with hfree | ⟨rfl, hshared⟩
        · have hzero (mode : LockMode) : holds l' mode s = 0 :=
            holds_eq_zero.mpr (hfree ▸ List.not_mem_nil)
          rw [hzero] at hex hsh
          cases mode with
          | shared =>
            simp at hex hsh
            omega
          | exclusive =>
            simp at hex hsh
            omega
        · have hzero : holds l' .exclusive s = 0 :=
            holds_eq_zero.mpr fun hmem => by cases hshared _ hmem
          simp at hex hsh
          omega
      · have hne (mode' : LockMode) : (held items).count (l, mode') = 0 := by
          rw [hheld, List.count_eq_zero, List.mem_singleton]
          exact fun heq => hl (congrArg Prod.fst heq).symm
        rw [hne] at hex hsh
        omega

/-- **Locks exclude**, in every reachable state of any programs. -/
theorem excludes_of_reachable [DecidableEq L] (h : (threads ps).Reachable s) : Excludes s := by
  refine System.ReachableUnder.invariant (fun s hs => ?_) (fun s e s' hP _ hs => hP.step hs) h
  obtain rfl : s = ps.map fun p => [.code p] := hs
  have hzero (l : L) (mode : LockMode) : holds l mode (ps.map fun p => [.code p]) = 0 := by
    refine tally_eq_zero.mpr fun t ht => ?_
    obtain ⟨p, -, rfl⟩ := List.mem_map.mp ht
    rfl
  exact fun l => ⟨by rw [hzero]; exact Nat.zero_le _, .inl (hzero ..)⟩

/-! ## A lock taken twice -/

/-- The program takes `l` on every way through it. -/
def Code.takes [DecidableEq L] (l : L) : Code L → Bool
  | .skip => false
  | .seq p q => p.takes l || q.takes l
  | .choose p q => p.takes l && q.takes l
  | .loop _ => false
  | .scope l' _ p => decide (l' = l) || p.takes l

/-- On every way through the program `l` is taken inside an exclusive section of `l`. -/
def Code.dooms [DecidableEq L] (l : L) : Code L → Bool
  | .skip => false
  | .seq p q => p.dooms l || q.dooms l
  | .choose p q => p.dooms l && q.dooms l
  | .loop _ => false
  | .scope l' mode p => (decide (l' = l) && mode == .exclusive && p.takes l) || p.dooms l

/-- One of the items is a program that `P` holds of. -/
def Has (P : Code L → Bool) (t : Thread L) : Prop := ∃ p, .code p ∈ t ∧ P p = true

/-- **The thread is inside an exclusive section of `l` and has to take `l` before it leaves it.** -/
def Trapped [DecidableEq L] (l : L) (t : Thread L) : Prop :=
  ∃ top rest, t = top ++ .unlock l .exclusive :: rest ∧ Has (Code.takes l) top

/-- It is, or will be. -/
def Doomed [DecidableEq L] (l : L) (t : Thread L) : Prop := Trapped l t ∨ Has (Code.dooms l) t

theorem Has.append_left {P : Code L → Bool} (h : Has P t) : Has P (t' ++ t) := by
  obtain ⟨p, hp, hP⟩ := h
  exact ⟨p, List.mem_append_right _ hp, hP⟩

theorem Has.append_right {P : Code L → Bool} (h : Has P t) : Has P (t ++ t') := by
  obtain ⟨p, hp, hP⟩ := h
  exact ⟨p, List.mem_append_left _ hp, hP⟩

/-- A program that has to take `l` goes on having to, as long as `l` is not free. -/
theorem has_takes_expand [DecidableEq L] (htakes : p.takes l = true)
    (hheld : LockMode.exclusive ∈ modes l) (h : expand modes answer (.code p) = some items) :
    Has (Code.takes l) items := by
  cases p with
  | skip | loop p => cases htakes
  | seq p q =>
    obtain rfl := Option.some.inj h
    rcases Bool.or_eq_true_iff.mp htakes with hp | hq
    · exact ⟨p, by simp, hp⟩
    · exact ⟨q, by simp, hq⟩
  | choose p q =>
    obtain rfl := Option.some.inj h
    obtain ⟨hp, hq⟩ := Bool.and_eq_true_iff.mp htakes
    cases answer with
    | false => exact ⟨q, by simp, hq⟩
    | true => exact ⟨p, by simp, hp⟩
  | scope l' mode p =>
    simp only [expand] at h
    split at h
    · rename_i hgrants
      obtain rfl := Option.some.inj h
      rcases Bool.or_eq_true_iff.mp htakes with heq | hp
      · obtain rfl : l' = l := of_decide_eq_true heq
        rcases grants_cases hgrants with hnil | ⟨-, hshared⟩
        · rw [hnil] at hheld
          cases hheld
        · cases hshared _ hheld
      · exact ⟨p, by simp, hp⟩
    · cases h

/-- **A trapped thread stays trapped.** -/
theorem Trapped.advance [DecidableEq L] (h : Trapped l t) (hheld : LockMode.exclusive ∈ modes l)
    (ht : advance modes answer t = some t') : Trapped l t' := by
  obtain ⟨top, rest, rfl, p, hp, htakes⟩ := h
  cases top with
  | nil => cases hp
  | cons item top =>
    obtain ⟨items, hitems, rfl⟩ := advance_cons_eq_some.mp ht
    refine ⟨items ++ top, rest, (List.append_assoc ..).symm, ?_⟩
    rcases List.mem_cons.mp hp with rfl | hp
    · exact (has_takes_expand htakes hheld hitems).append_right
    · exact Has.append_left ⟨p, hp, htakes⟩

/-- What a program leads to that has to take `l` twice. -/
theorem doomed_expand [DecidableEq L] (hdooms : p.dooms l = true)
    (h : expand modes answer (.code p) = some items) : Doomed l (items ++ t) := by
  cases p with
  | skip | loop p => cases hdooms
  | seq p q =>
    obtain rfl := Option.some.inj h
    rcases Bool.or_eq_true_iff.mp hdooms with hp | hq
    · exact .inr ⟨p, by simp, hp⟩
    · exact .inr ⟨q, by simp, hq⟩
  | choose p q =>
    obtain rfl := Option.some.inj h
    obtain ⟨hp, hq⟩ := Bool.and_eq_true_iff.mp hdooms
    cases answer with
    | false => exact .inr ⟨q, by simp, hq⟩
    | true => exact .inr ⟨p, by simp, hp⟩
  | scope l' mode p =>
    simp only [expand] at h
    split at h
    · obtain rfl := Option.some.inj h
      rcases Bool.or_eq_true_iff.mp hdooms with hhere | hp
      · obtain ⟨heq, htakes⟩ := Bool.and_eq_true_iff.mp hhere
        obtain ⟨hl, hmode⟩ := Bool.and_eq_true_iff.mp heq
        obtain rfl : l' = l := of_decide_eq_true hl
        obtain rfl : mode = .exclusive := eq_of_beq hmode
        exact .inl ⟨[.code p], t, rfl, p, List.mem_singleton_self _, htakes⟩
      · exact .inr ⟨p, by simp, hp⟩
    · cases h

/-- A trapped thread holds the lock it waits for. -/
theorem Trapped.mem_held [DecidableEq L] (h : Trapped l t) : (l, .exclusive) ∈ held t := by
  obtain ⟨top, rest, rfl, -⟩ := h
  exact List.mem_filterMap.mpr ⟨.unlock l .exclusive, by simp, rfl⟩

/-- **A doomed thread stays doomed**, whatever the others do. -/
theorem Doomed.step [DecidableEq L] (h : ∃ t, s[i]? = some t ∧ Doomed l t)
    (hs : (threads ps).step s e = some s') : ∃ t, s'[i]? = some t ∧ Doomed l t := by
  obtain ⟨t, ht, hdoomed⟩ := h
  obtain ⟨u, u', hu, hu', rfl⟩ := step_eq_some.mp hs
  by_cases hi : e.1 = i
  · obtain rfl := hi
    obtain rfl := Option.some.inj (hu.symm.trans ht)
    have hlt := (List.getElem?_eq_some_iff.mp hu).1
    refine ⟨u', List.getElem?_set_self hlt, ?_⟩
    rcases hdoomed with htrapped | ⟨p, hp, hdooms⟩
    · have hheld : LockMode.exclusive ∈ heldModes s l :=
        mem_heldModes.mpr ⟨u, List.mem_of_getElem? hu, htrapped.mem_held⟩
      exact .inl (htrapped.advance hheld hu')
    · cases u with
      | nil => cases hp
      | cons item u =>
        obtain ⟨items, hitems, rfl⟩ := advance_cons_eq_some.mp hu'
        rcases List.mem_cons.mp hp with rfl | hp
        · exact doomed_expand hdooms hitems
        · exact .inr (Has.append_left ⟨p, hp, hdooms⟩)
  · exact ⟨t, by rw [List.getElem?_set_ne hi, ht], hdoomed⟩

/-- **A thread that takes a lock inside an exclusive section of it never gets to its end**, in no
run of any threads. -/
theorem not_done_of_doomed [DecidableEq L] (h : ∃ t, s[i]? = some t ∧ Doomed l t)
    (hr : (threads ps).run s es = some s') : s'[i]? ≠ some [] := by
  have hlast := System.Meets.invariant (P := fun s => ∃ t, s[i]? = some t ∧ Doomed l t)
    (fun s e s' hP _ hs => Doomed.step hP hs) System.meets_true hr h
  obtain ⟨t, ht, hdoomed⟩ := hlast
  intro hnil
  obtain rfl : t = [] := Option.some.inj (ht.symm.trans hnil)
  rcases hdoomed with htrapped | ⟨p, hp, -⟩
  · cases htrapped.mem_held
  · cases hp

/-- A trapped thread, and one that has to take the same lock. -/
structure Starves [DecidableEq L] (l : L) (i j : ℕ) (s : List (Thread L)) : Prop where
  trapped : ∃ t, s[j]? = some t ∧ Trapped l t
  takes : ∃ t, s[i]? = some t ∧ Has (Code.takes l) t

theorem Starves.step [DecidableEq L] {j : ℕ} (h : Starves l i j s)
    (hs : (threads ps).step s e = some s') : Starves l i j s' := by
  obtain ⟨⟨t, ht, htrapped⟩, u, hu, htakes⟩ := h
  have hheld : LockMode.exclusive ∈ heldModes s l :=
    mem_heldModes.mpr ⟨t, List.mem_of_getElem? ht, htrapped.mem_held⟩
  obtain ⟨v, v', hv, hv', rfl⟩ := step_eq_some.mp hs
  have hlt := (List.getElem?_eq_some_iff.mp hv).1
  constructor
  · by_cases hj : e.1 = j
    · obtain rfl := hj
      obtain rfl := Option.some.inj (hv.symm.trans ht)
      exact ⟨v', List.getElem?_set_self hlt, htrapped.advance hheld hv'⟩
    · exact ⟨t, by rw [List.getElem?_set_ne hj, ht], htrapped⟩
  · by_cases hi : e.1 = i
    · obtain rfl := hi
      obtain rfl := Option.some.inj (hv.symm.trans hu)
      refine ⟨v', List.getElem?_set_self hlt, ?_⟩
      obtain ⟨p, hp, hpt⟩ := htakes
      cases v with
      | nil => cases hp
      | cons item v =>
        obtain ⟨items, hitems, rfl⟩ := advance_cons_eq_some.mp hv'
        rcases List.mem_cons.mp hp with rfl | hp
        · exact (has_takes_expand hpt hheld hitems).append_right
        · exact Has.append_left ⟨p, hp, hpt⟩
    · exact ⟨u, by rw [List.getElem?_set_ne hi, hu], htakes⟩

/-- **And it keeps everybody else from its lock**, for good. -/
theorem not_done_of_starves [DecidableEq L] {j : ℕ} (h : Starves l i j s)
    (hr : (threads ps).run s es = some s') : s'[i]? ≠ some [] := by
  have hlast := System.Meets.invariant (P := Starves l i j)
    (fun s e s' hP _ hs => Starves.step hP hs) System.meets_true hr h
  obtain ⟨t, ht, p, hp, -⟩ := hlast.takes
  intro hnil
  obtain rfl : t = [] := Option.some.inj (ht.symm.trans hnil)
  cases hp

end ScopedLocks

end DdingGameServer
