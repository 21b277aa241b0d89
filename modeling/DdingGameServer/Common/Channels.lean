import Mathlib.Data.List.Basic
import DdingGameServer.Common.Tally
/-!
# FIFO channels

Several channels, each a queue that is delivered in the order it was filled; between channels any
order. `Delivers channels l` says that `l` is a complete delivery. What stands in one channel
arrives in its order, and that is all a sender may rely on: any one channel can be delivered before
all the others.
-/

namespace DdingGameServer

universe u v

variable {α : Type u} {β : Type v} {channels : List (List α)} {q l : List α} {c d : ℕ} {a : α}

/-- **A complete delivery of the channels**, one head at a time. -/
inductive Delivers : List (List α) → List α → Prop
  | done {channels : List (List α)} : (∀ q ∈ channels, q = []) → Delivers channels []
  | deliver {channels : List (List α)} {c : ℕ} {a : α} {q l : List α} :
      channels[c]? = some (a :: q) → Delivers (channels.set c q) l → Delivers channels (a :: l)

/-- Put `a` at the end of channel `c`. -/
def enqueue (channels : List (List α)) (c : ℕ) (a : α) : List (List α) :=
  channels.modify c (· ++ [a])

theorem length_enqueue : (enqueue channels c a).length = channels.length := by
  simp [enqueue]

theorem getElem?_enqueue_self : (enqueue channels c a)[c]? = channels[c]?.map (· ++ [a]) := by
  simp [enqueue]

theorem getElem?_enqueue_of_ne (h : c ≠ d) : (enqueue channels c a)[d]? = channels[d]? := by
  simp [enqueue, h]

/-- **What stands in one channel arrives in its order.** Items that `f` keeps and only channel `c`
holds are delivered as `c` holds them. -/
theorem Delivers.filterMap_eq {f : α → Option β} (h : Delivers channels l)
    (hothers : ∀ d q', d ≠ c → channels[d]? = some q' → q'.filterMap f = [])
    (hc : channels[c]? = some q) : l.filterMap f = q.filterMap f := by
  induction h generalizing q with
  | done hempty =>
    obtain rfl := hempty q (List.mem_of_getElem? hc)
    rfl
  | @deliver channels e a q₀ l he _ ih =>
    have hlt : e < channels.length := (List.getElem?_eq_some_iff.mp he).1
    by_cases hec : e = c
    · -- The head comes from `c` itself.
      subst hec
      obtain rfl : q = a :: q₀ := by rw [hc] at he; exact Option.some.inj he
      have hrest : l.filterMap f = q₀.filterMap f := by
        refine ih (fun d q' hd hq' => hothers d q' hd ?_) (List.getElem?_set_self hlt)
        rwa [List.getElem?_set_ne hd.symm] at hq'
      simp only [List.filterMap_cons, hrest]
    · -- It comes from another channel, and `f` drops it.
      have hnone : (a :: q₀).filterMap f = [] := hothers e _ hec he
      have ha : f a = none := List.filterMap_eq_nil_iff.mp hnone a List.mem_cons_self
      rw [List.filterMap_cons_none ha] at hnone ⊢
      refine ih (fun d q' hd hq' => ?_) (by rwa [List.getElem?_set_ne hec])
      by_cases hde : e = d
      · subst hde
        rw [List.getElem?_set_self hlt] at hq'
        obtain rfl := Option.some.inj hq'
        exact hnone
      · rw [List.getElem?_set_ne hde] at hq'
        exact hothers d q' hd hq'

/-- A channel can be delivered whole before anything else. -/
theorem Delivers.append (h : channels[c]? = some q) (hrest : Delivers (channels.set c []) l) :
    Delivers channels (q ++ l) := by
  induction q generalizing channels with
  | nil =>
    obtain ⟨hlt, hget⟩ := List.getElem?_eq_some_iff.mp h
    rwa [← hget, List.set_getElem_self] at hrest
  | cons a q ih =>
    have hlt : c < channels.length := (List.getElem?_eq_some_iff.mp h).1
    refine .deliver h (ih (List.getElem?_set_self hlt) ?_)
    rwa [List.set_set]

/-- **Every family of channels has a delivery.** -/
theorem exists_delivers (channels : List (List α)) : ∃ l, Delivers channels l := by
  -- By induction on how much is still queued: one head leaves one item less.
  induction hn : tally List.length channels generalizing channels with
  | zero => exact ⟨[], .done fun q hq => by simpa using tally_eq_zero.mp hn q hq⟩
  | succ n ih =>
    obtain ⟨q, hq, hlen⟩ : ∃ q ∈ channels, q.length ≠ 0 := by
      by_contra hnone
      push Not at hnone
      have := tally_eq_zero.mpr hnone
      omega
    obtain ⟨c, hc⟩ := List.mem_iff_getElem?.mp hq
    obtain ⟨a, q, rfl⟩ := List.exists_cons_of_length_pos (Nat.pos_of_ne_zero hlen)
    have hset := tally_set (f := List.length) (b := q) hc
    rw [List.length_cons] at hset
    obtain ⟨l, hl⟩ := ih (channels.set c q) (by omega)
    exact ⟨a :: l, .deliver hc hl⟩

end DdingGameServer
