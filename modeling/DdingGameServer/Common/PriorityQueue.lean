import Mathlib.Algebra.Order.Group.Multiset
import Mathlib.Data.List.MinMax
import Mathlib.Data.Multiset.Filter
/-!
# Priority queues

What a priority queue promises, whatever it is built of: `push` adds an element, `top` is an element
with the greatest key, `pop` takes away what `top` answered. Which of several elements with the
greatest key is on top is left open. `popWhile` pops as long as the top satisfies a test; where the
test passes on to greater keys it pops exactly the elements that satisfy it, the greatest key first.
-/

namespace DdingGameServer

universe u v w

/-- **A priority queue** of elements of `α`, the greatest `key` on top. -/
structure PriorityQueue (α : Type u) {κ : Type v} [LinearOrder κ] (key : α → κ) where
  Queue : Type w
  /-- What is in the queue, each element as often as it is there. -/
  contents : Queue → Multiset α
  empty : Queue
  push : Queue → α → Queue
  /-- `none` where the queue is empty. -/
  top : Queue → Option α
  pop : Queue → Queue
  contents_empty : contents empty = 0
  contents_push : ∀ q a, contents (push q a) = a ::ₘ contents q
  contents_of_top_none : ∀ {q}, top q = none → contents q = 0
  top_mem : ∀ {q a}, top q = some a → a ∈ contents q
  le_top : ∀ {q a b}, top q = some a → b ∈ contents q → key b ≤ key a
  contents_pop : ∀ {q a}, top q = some a → a ::ₘ contents (pop q) = contents q

namespace PriorityQueue

variable {α : Type u} {κ : Type v} [LinearOrder κ] {key : α → κ} (Q : PriorityQueue α key)

/-- Pop as long as the top satisfies `p`, at most `n` times: what was popped, in order, and the
queue that is left. -/
def popWhile (p : α → Bool) : ℕ → Q.Queue → List α × Q.Queue
  | 0, q => ([], q)
  | n + 1, q =>
    match Q.top q with
    | none => ([], q)
    | some a =>
      if p a then (a :: (popWhile p n (Q.pop q)).1, (popWhile p n (Q.pop q)).2) else ([], q)

variable {Q} {p : α → Bool} {n : ℕ} {q : Q.Queue} {a : α}

theorem popWhile_of_none (h : Q.top q = none) : Q.popWhile p n q = ([], q) := by
  cases n with
  | zero => rfl
  | succ n => simp only [popWhile, h]

theorem popWhile_of_pos (h : Q.top q = some a) (ha : p a = true) :
    Q.popWhile p (n + 1) q =
      (a :: (Q.popWhile p n (Q.pop q)).1, (Q.popWhile p n (Q.pop q)).2) := by
  simp only [popWhile, h, ha, if_true]

theorem popWhile_of_neg (h : Q.top q = some a) (ha : p a = false) :
    Q.popWhile p n q = ([], q) := by
  cases n with
  | zero => rfl
  | succ n => simp only [popWhile, h, ha, Bool.false_eq_true, if_false]

/-- Nothing is lost: what was popped and what is left make up what there was. -/
theorem popWhile_add (p : α → Bool) (n : ℕ) (q : Q.Queue) :
    ↑(Q.popWhile p n q).1 + Q.contents (Q.popWhile p n q).2 = Q.contents q := by
  induction n generalizing q with
  | zero => exact zero_add _
  | succ n ih =>
    cases h : Q.top q with
    | none => rw [popWhile_of_none h]; exact zero_add _
    | some a =>
      cases ha : p a with
      | false => rw [popWhile_of_neg h ha]; exact zero_add _
      | true =>
        rw [popWhile_of_pos h ha, ← Q.contents_pop h, ← ih (Q.pop q), ← Multiset.cons_add]
        rfl

/-- Where the top fails an upward closed test, everything does. -/
theorem eq_false_of_top (hp : ∀ a b, key b ≤ key a → p b = true → p a = true)
    (h : Q.top q = some a) (ha : p a = false) : ∀ b ∈ Q.contents q, p b = false := by
  intro b hb
  by_contra hne
  have := hp a b (Q.le_top h hb) (by simpa using hne)
  rw [ha] at this
  cases this

/-- **What is popped** is exactly what satisfies the test, -/
theorem popWhile_fst (hp : ∀ a b, key b ≤ key a → p b = true → p a = true)
    (hn : (Q.contents q).card ≤ n) :
    ((Q.popWhile p n q).1 : Multiset α) = (Q.contents q).filter fun a => p a = true := by
  induction n generalizing q with
  | zero =>
    rw [Multiset.card_eq_zero.mp (Nat.le_zero.mp hn)]
    rfl
  | succ n ih =>
    cases h : Q.top q with
    | none =>
      rw [popWhile_of_none h, Q.contents_of_top_none h]
      rfl
    | some a =>
      cases ha : p a with
      | false =>
        have hfalse := eq_false_of_top hp h ha
        rw [popWhile_of_neg h ha, Multiset.filter_eq_nil.mpr]
        · rfl
        · intro b hb
          simp [hfalse b hb]
      | true =>
        have hcard := congrArg Multiset.card (Q.contents_pop h)
        rw [Multiset.card_cons] at hcard
        have hfilter := Multiset.filter_cons_of_pos (p := fun a => p a = true)
          (Q.contents (Q.pop q)) ha
        rw [popWhile_of_pos h ha, ← Q.contents_pop h, hfilter, ← ih (by omega)]
        rfl

/-- and the rest is left, -/
theorem popWhile_snd (hp : ∀ a b, key b ≤ key a → p b = true → p a = true)
    (hn : (Q.contents q).card ≤ n) :
    Q.contents (Q.popWhile p n q).2 = (Q.contents q).filter fun a => ¬ p a = true := by
  have hadd := popWhile_add p n q
  rw [popWhile_fst hp hn] at hadd
  refine add_left_cancel (hadd.trans ?_)
  exact (Multiset.filter_add_not _ _).symm

/-- the greatest key first. -/
theorem popWhile_pairwise (Q : PriorityQueue α key) (p : α → Bool) (n : ℕ) (q : Q.Queue) :
    (Q.popWhile p n q).1.Pairwise fun a b => key b ≤ key a := by
  induction n generalizing q with
  | zero => exact .nil
  | succ n ih =>
    cases h : Q.top q with
    | none => rw [popWhile_of_none h]; exact .nil
    | some a =>
      cases ha : p a with
      | false => rw [popWhile_of_neg h ha]; exact .nil
      | true =>
        rw [popWhile_of_pos h ha]
        refine List.pairwise_cons.mpr ⟨fun b hb => Q.le_top h ?_, ih (Q.pop q)⟩
        rw [← Q.contents_pop h, ← popWhile_add p n (Q.pop q)]
        exact Multiset.mem_cons_of_mem (Multiset.mem_add.mpr (.inl hb))

/-- The queue that searches a list for its top. -/
def scan [DecidableEq α] (key : α → κ) : PriorityQueue α key where
  Queue := List α
  contents l := l
  empty := []
  push l a := a :: l
  top l := l.argmax key
  pop l := (l.argmax key).elim l l.erase
  contents_empty := rfl
  contents_push _ _ := rfl
  contents_of_top_none h := by rw [List.argmax_eq_none.mp h]; rfl
  top_mem h := List.argmax_mem h
  le_top h hb := List.le_of_mem_argmax hb h
  contents_pop {l a} h := by
    rw [h]
    exact Multiset.coe_eq_coe.mpr (List.perm_cons_erase (List.argmax_mem h)).symm

end PriorityQueue

end DdingGameServer
