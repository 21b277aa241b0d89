import Mathlib.Data.List.Nodup
import Mathlib.Data.List.TakeWhile
import Mathlib.Data.Nat.Notation
/-!
# Range-based loops over a linked list

A linked list is a list of nodes with distinct ids, and an iterator is the id of a node, or none at
the end. A range-based loop runs its body on the value of the node it stands on and then advances to
the next; the body may take the first node out and may break off. An iterator whose node has been
taken out leads nowhere: reading through it or advancing it ends in `readsRemoved`.

`ends_iff` is the rule for a body that takes out the first node in every turn but the one it breaks
off in: such a loop comes to an end only where it takes out nothing.
-/

namespace DdingGameServer

universe u v

/-- A node: where it is and what it holds. -/
structure Node (α : Type u) where
  id : ℕ
  value : α
  deriving DecidableEq, Repr

/-- **A linked list.** -/
structure NodeList (α : Type u) where
  nodes : List (Node α)
  nodup : (nodes.map Node.id).Nodup

/-- What a turn of a loop does: the state it leaves, and whether it takes the first node out and
breaks off. -/
structure Turn (σ : Type v) where
  state : σ
  popsFront : Bool
  breaks : Bool

/-- How a loop ends. -/
inductive Ending (σ : Type v) (α : Type u)
  | finished (state : σ) (list : NodeList α)
  | readsRemoved (state : σ) (list : NodeList α)
  /-- The fuel is spent. -/
  | running (state : σ) (list : NodeList α)

namespace NodeList

variable {α : Type u} {σ : Type v}

/-- The values, in order. -/
def values (l : NodeList α) : List α := l.nodes.map Node.value

/-- The iterator at the start. -/
def first (l : NodeList α) : Option ℕ := l.nodes.head?.map Node.id

/-- Take the first node out. -/
def popFront (l : NodeList α) : NodeList α where
  nodes := l.nodes.tail
  nodup := by
    rw [List.map_tail]
    exact l.nodup.sublist (List.tail_sublist _)

/-- The node of an id. -/
def node (l : NodeList α) (id : ℕ) : Option (Node α) :=
  l.nodes.find? fun n => n.id = id

/-- The iterator after the node of an id, `none` where there is no such node. -/
def next (l : NodeList α) (id : ℕ) : Option (Option ℕ) :=
  match l.nodes.dropWhile fun n => n.id ≠ id with
  | [] => none
  | _ :: rest => some (rest.head?.map Node.id)

/-- **The range-based loop**, from an iterator on. -/
def rangeFor (body : σ → α → Turn σ) : ℕ → σ → NodeList α → Option ℕ → Ending σ α
  | 0, s, l, _ => .running s l
  | _ + 1, s, l, none => .finished s l
  | fuel + 1, s, l, some id =>
    match l.node id with
    | none => .readsRemoved s l
    | some n =>
      let turn := body s n.value
      let l := if turn.popsFront = true then l.popFront else l
      if turn.breaks = true then .finished turn.state l
      else
        match l.next id with
        | none => .readsRemoved turn.state l
        | some iter => rangeFor body fuel turn.state l iter

/-- The loop from the start comes to its end. -/
def Ends (body : σ → α → Turn σ) (s : σ) (l : NodeList α) (s' : σ) (l' : NodeList α) : Prop :=
  ∃ fuel, rangeFor body fuel s l l.first = .finished s' l'

variable {body : σ → α → Turn σ} {s s' : σ} {l l' : NodeList α} {n : Node α}
  {rest : List (Node α)} {fuel : ℕ}

@[simp] theorem nodes_popFront : l.popFront.nodes = l.nodes.tail := rfl

theorem first_of_cons (h : l.nodes = n :: rest) : l.first = some n.id := by
  rw [first, h]
  rfl

theorem node_of_cons (h : l.nodes = n :: rest) : l.node n.id = some n := by
  rw [node, h, List.find?_cons_of_pos (by simp)]

/-- **A node that was taken out leads nowhere.** -/
theorem next_popFront (h : l.nodes = n :: rest) : l.popFront.next n.id = none := by
  have hnodup := l.nodup
  rw [h, List.map_cons, List.nodup_cons] at hnodup
  have hdrop : (l.popFront.nodes.dropWhile fun m => m.id ≠ n.id) = [] := by
    rw [List.dropWhile_eq_nil_iff]
    intro m hm
    rw [nodes_popFront, h, List.tail_cons] at hm
    exact decide_eq_true fun heq => hnodup.1 (heq ▸ List.mem_map_of_mem hm)
  rw [next, hdrop]

/-- A loop over no node. -/
theorem rangeFor_of_nil (h : l.nodes = []) :
    rangeFor body (fuel + 1) s l l.first = .finished s l := by
  rw [first, h]
  rfl

/-- A loop that breaks off in its first turn. -/
theorem rangeFor_of_breaks (h : l.nodes = n :: rest) (hpop : (body s n.value).popsFront = false)
    (hbreaks : (body s n.value).breaks = true) :
    rangeFor body (fuel + 1) s l l.first = .finished (body s n.value).state l := by
  rw [first_of_cons h, rangeFor, node_of_cons h]
  simp only [hpop, hbreaks, Bool.false_eq_true, if_false, if_true]

/-- **A loop that takes out the node it stands on and goes on reads what it took out.** -/
theorem rangeFor_of_pops (h : l.nodes = n :: rest) (hpop : (body s n.value).popsFront = true)
    (hbreaks : (body s n.value).breaks = false) :
    rangeFor body (fuel + 1) s l l.first =
      .readsRemoved (body s n.value).state l.popFront := by
  rw [first_of_cons h, rangeFor, node_of_cons h]
  simp only [hpop, hbreaks, Bool.false_eq_true, if_false, if_true, next_popFront h]

/-- **The rule for a body that takes out the first node unless it breaks off**: the loop comes to
its end over no node, and where it breaks off at the first. -/
theorem ends_iff (hbody : ∀ s a, (body s a).popsFront = !(body s a).breaks) :
    Ends body s l s' l' ↔
      l' = l ∧ (l.nodes = [] ∧ s' = s ∨
        ∃ n rest, l.nodes = n :: rest ∧ (body s n.value).breaks = true ∧
          s' = (body s n.value).state) := by
  constructor
  · rintro ⟨fuel, hends⟩
    cases fuel with
    | zero => cases hends
    | succ fuel =>
      cases hnodes : l.nodes with
      | nil =>
        rw [rangeFor_of_nil hnodes] at hends
        cases hends
        exact ⟨rfl, .inl ⟨rfl, rfl⟩⟩
      | cons n rest =>
        cases hbreaks : (body s n.value).breaks with
        | true =>
          rw [rangeFor_of_breaks hnodes (by rw [hbody, hbreaks]; rfl) hbreaks] at hends
          cases hends
          exact ⟨rfl, .inr ⟨n, rest, rfl, hbreaks, rfl⟩⟩
        | false =>
          rw [rangeFor_of_pops hnodes (by rw [hbody, hbreaks]; rfl) hbreaks] at hends
          cases hends
  · rintro ⟨rfl, ⟨hnodes, rfl⟩ | ⟨n, rest, hnodes, hbreaks, rfl⟩⟩
    · exact ⟨1, rangeFor_of_nil hnodes⟩
    · exact ⟨1, rangeFor_of_breaks hnodes (by rw [hbody, hbreaks]; rfl) hbreaks⟩

end NodeList

end DdingGameServer
