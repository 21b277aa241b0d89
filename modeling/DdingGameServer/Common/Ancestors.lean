import Mathlib.Data.Finset.Card
import Mathlib.Logic.Relation
/-!
# Climbing a forest

Every node of a forest has one parent or none, and no node is its own ancestor. `climb` goes from a
node to its root. In a finite forest the number of nodes is enough for that (`Forest.exists_climb`),
and what is met on the way are the ancestors (`mem_climb_iff`), which order the nodes
(`Forest.eq_of_reaches`). Nothing here is about any particular program.
-/

namespace DdingGameServer

universe u

variable {α : Type u}

/-- `b` is the parent of `a`. -/
def IsParent (parent : α → Option α) (a b : α) : Prop := parent a = some b

/-- `b` is `a`, or an ancestor of it. -/
abbrev Reaches (parent : α → Option α) : α → α → Prop := Relation.ReflTransGen (IsParent parent)

/-- **A finite forest**, by its parents. -/
structure Forest (α : Type u) where
  nodes : Finset α
  parent : α → Option α
  parent_mem : ∀ a ∈ nodes, ∀ b, parent a = some b → b ∈ nodes
  acyclic : ∀ a ∈ nodes, ¬ Relation.TransGen (IsParent parent) a a

/-- The nodes from a start up to the root, `none` where `fuel` steps do not get there. -/
def climb (parent : α → Option α) : ℕ → Option α → Option (List α)
  | _, none => some []
  | 0, some _ => none
  | fuel + 1, some a => (climb parent fuel (parent a)).map (a :: ·)

variable {parent : α → Option α} {m n : ℕ} {start : Option α} {l : List α} {a b : α}

/-- More steps change nothing. -/
theorem climb_of_le (hle : n ≤ m) (h : climb parent n start = some l) :
    climb parent m start = some l := by
  induction n generalizing m start l with
  | zero =>
    cases start with
    | none => cases m <;> exact h
    | some a => cases h
  | succ n ih =>
    cases start with
    | none => cases m <;> exact h
    | some a =>
      obtain ⟨m, rfl⟩ : ∃ k, m = k + 1 := ⟨m - 1, by omega⟩
      obtain ⟨rest, hrest, rfl⟩ := Option.map_eq_some_iff.mp h
      rw [climb, ih (by omega) hrest]
      rfl

/-- **What is met on the way up** is what the start reaches. -/
theorem mem_climb_iff (h : climb parent n start = some l) :
    b ∈ l ↔ ∃ a, start = some a ∧ Reaches parent a b := by
  induction n generalizing start l with
  | zero =>
    cases start with
    | none =>
      obtain rfl := Option.some.inj h
      simp
    | some a => cases h
  | succ n ih =>
    cases start with
    | none =>
      obtain rfl := Option.some.inj h
      simp
    | some a =>
      obtain ⟨rest, hrest, rfl⟩ := Option.map_eq_some_iff.mp h
      rw [List.mem_cons, ih hrest]
      constructor
      · rintro (rfl | ⟨c, hc, hreaches⟩)
        · exact ⟨b, rfl, .refl⟩
        · exact ⟨a, rfl, .head hc hreaches⟩
      · rintro ⟨_, hstart, hreaches⟩
        obtain rfl := Option.some.inj hstart
        rcases Relation.ReflTransGen.cases_head_iff.mp hreaches with rfl | ⟨c, hc, hreaches⟩
        · exact .inl rfl
        · exact .inr ⟨c, hc, hreaches⟩

/-- **As many steps as there are nodes to meet are enough**: no node is met twice. -/
theorem exists_climb_of_subset [DecidableEq α] (s : Finset α) (hs : ∀ b, Reaches parent a b → b ∈ s)
    (hacyclic : ∀ b ∈ s, ¬ Relation.TransGen (IsParent parent) b b) :
    ∃ l, climb parent s.card (some a) = some l := by
  induction hn : s.card generalizing a s with
  | zero =>
    have ha := hs a .refl
    rw [Finset.card_eq_zero.mp hn] at ha
    cases ha
  | succ n ih =>
    cases hparent : parent a with
    | none => exact ⟨[a], by simp [climb, hparent]⟩
    | some c =>
      -- the rest of the way does not come back to `a`
      have hrest : ∀ b, Reaches parent c b → b ∈ s.erase a := by
        intro b hb
        refine Finset.mem_erase.mpr ⟨?_, hs b (.head hparent hb)⟩
        rintro rfl
        exact hacyclic b (hs b .refl) (.head' hparent hb)
      have hcard : (s.erase a).card = n := by
        rw [Finset.card_erase_of_mem (hs a .refl), hn, Nat.add_sub_cancel]
      obtain ⟨l, hl⟩ := ih (s.erase a) hrest
        (fun b hb => hacyclic b (Finset.mem_of_mem_erase hb)) hcard
      exact ⟨a :: l, by rw [climb, hparent, hl]; rfl⟩

/-- Where every parent is less than its child, no node is its own ancestor. -/
theorem not_transGen_of_lt [Preorder α] (h : ∀ a b, parent a = some b → b < a) (a : α) :
    ¬ Relation.TransGen (IsParent parent) a a := by
  have hlt (b : α) (hab : Relation.TransGen (IsParent parent) a b) : b < a := by
    induction hab with
    | single hstep => exact h _ _ hstep
    | tail _ hstep ih => exact (h _ _ hstep).trans ih
  exact fun hself => lt_irrefl a (hlt a hself)

namespace Forest

variable (f : Forest α)

theorem mem_of_reaches (ha : a ∈ f.nodes) (h : Reaches f.parent a b) : b ∈ f.nodes := by
  induction h with
  | refl => exact ha
  | tail _ hstep ih => exact f.parent_mem _ ih _ hstep

/-- **Climbing a finite forest ends** at a root. -/
theorem exists_climb [DecidableEq α] (ha : a ∈ f.nodes) :
    ∃ l, climb f.parent f.nodes.card (some a) = some l :=
  exists_climb_of_subset f.nodes (fun _ hb => f.mem_of_reaches ha hb) f.acyclic

/-- **Two nodes that reach each other are one.** -/
theorem eq_of_reaches (ha : a ∈ f.nodes) (hab : Reaches f.parent a b)
    (hba : Reaches f.parent b a) : a = b := by
  rcases Relation.reflTransGen_iff_eq_or_transGen.mp hab with rfl | hstrict
  · rfl
  · exact absurd (hstrict.trans_left hba) (f.acyclic a ha)

end Forest

end DdingGameServer
