import Mathlib.Algebra.GroupWithZero.Nat
import Mathlib.Algebra.BigOperators.Group.List.Basic
import Mathlib.Algebra.Order.BigOperators.Group.List
/-!
# Tallies over a list

`tally f l` adds up a natural weight over the entries of a list. It is how a concurrent system's
bookkeeping is stated: the list holds the processes, `f` counts what one process still owes, and a
step of one process replaces one entry. `tally_set` says what the replacement does to the total,
and the comparison lemmas bound one entry by the whole.
-/

namespace DdingGameServer

universe u

variable {α : Type u} {f g : α → ℕ} {l : List α} {i j : ℕ} {a b c : α}

/-- An entry of a list one of whose entries was replaced: the new one, or another. -/
theorem getElem?_set_eq_some (h : (l.set i a)[j]? = some b) :
    (j = i ∧ b = a) ∨ (j ≠ i ∧ l[j]? = some b) := by
  by_cases hij : j = i
  · subst hij
    obtain ⟨hlt, hget⟩ := List.getElem?_eq_some_iff.mp h
    exact .inl ⟨rfl, by simpa using hget.symm⟩
  · rw [List.getElem?_set_ne (Ne.symm hij)] at h
    exact .inr ⟨hij, h⟩

/-- An entry of a list one longer: an old one, or the last. -/
theorem getElem?_concat_eq_some (h : (l ++ [a])[j]? = some b) :
    l[j]? = some b ∨ (j = l.length ∧ b = a) := by
  rw [List.getElem?_append] at h
  split at h
  · exact .inl h
  · obtain ⟨hlt, hget⟩ := List.getElem?_eq_some_iff.mp h
    rw [List.length_singleton] at hlt
    exact .inr ⟨by omega, by simpa using hget.symm⟩

/-- The total of `f` over the entries of `l`. -/
def tally (f : α → ℕ) (l : List α) : ℕ := (l.map f).sum

@[simp] theorem tally_nil : tally f [] = 0 := rfl

@[simp] theorem tally_cons : tally f (a :: l) = f a + tally f l := by
  simp [tally]

/-- **Replacing one entry moves the total by that entry's change.** -/
theorem tally_set (h : l[i]? = some a) : tally f (l.set i b) + f a = tally f l + f b := by
  induction l generalizing i with
  | nil => simp at h
  | cons x l ih =>
    cases i with
    | zero =>
      obtain rfl : x = a := by simpa using h
      simp only [List.set_cons_zero, tally_cons]
      omega
    | succ i =>
      have := ih (i := i) (by simpa using h)
      simp only [List.set_cons_succ, tally_cons]
      omega

/-- One entry's weight is part of the total. -/
theorem le_tally (h : l[i]? = some a) : f a ≤ tally f l := by
  induction l generalizing i with
  | nil => simp at h
  | cons x l ih =>
    cases i with
    | zero =>
      obtain rfl : x = a := by simpa using h
      simp
    | succ i =>
      have hle := ih (i := i) (by simpa using h)
      simp only [tally_cons]
      omega

theorem le_tally_of_mem (h : a ∈ l) : f a ≤ tally f l := by
  obtain ⟨i, hi⟩ := List.mem_iff_getElem?.mp h
  exact le_tally hi

/-- Two different entries are both part of the total. -/
theorem add_le_tally (hij : i ≠ j) (ha : l[i]? = some a) (hb : l[j]? = some b) :
    f a + f b ≤ tally f l := by
  induction l generalizing i j with
  | nil => simp at ha
  | cons x l ih =>
    cases i with
    | zero =>
      obtain rfl : x = a := by simpa using ha
      cases j with
      | zero => exact absurd rfl hij
      | succ j =>
        have : f b ≤ tally f l := le_tally (by simpa using hb)
        simp only [tally_cons]
        omega
    | succ i =>
      cases j with
      | zero =>
        obtain rfl : x = b := by simpa using hb
        have : f a ≤ tally f l := le_tally (by simpa using ha)
        simp only [tally_cons]
        omega
      | succ j =>
        have := ih (i := i) (j := j) (by omega) (by simpa using ha) (by simpa using hb)
        simp only [tally_cons]
        omega

/-- A weight below another at every entry has the smaller total. -/
theorem tally_le_tally (h : ∀ a ∈ l, f a ≤ g a) : tally f l ≤ tally g l := by
  induction l with
  | nil => simp
  | cons x l ih =>
    have hx := h x (by simp)
    have hl := ih fun a ha => h a (by simp [ha])
    simp only [tally_cons]
    omega

/-- Where one entry's weight falls short of another weight by `n`, so does the total. -/
theorem tally_add_le_tally {n : ℕ} (h : ∀ a ∈ l, f a ≤ g a) (hi : l[i]? = some a)
    (ha : f a + n ≤ g a) : tally f l + n ≤ tally g l := by
  induction l generalizing i with
  | nil => simp at hi
  | cons x l ih =>
    have hl : ∀ b ∈ l, f b ≤ g b := fun b hb => h b (by simp [hb])
    cases i with
    | zero =>
      obtain rfl : x = a := by simpa using hi
      have := tally_le_tally hl
      simp only [tally_cons]
      omega
    | succ i =>
      have hx := h x (by simp)
      have := ih hl (i := i) (by simpa using hi)
      simp only [tally_cons]
      omega

/-- The total vanishes exactly where every entry's weight does. -/
theorem tally_eq_zero : tally f l = 0 ↔ ∀ a ∈ l, f a = 0 := by
  induction l with
  | nil => simp
  | cons x l ih => simp [ih]

/-- It is positive where one entry's weight is. -/
theorem tally_pos : 0 < tally f l ↔ ∃ a ∈ l, 0 < f a := by
  rw [Nat.pos_iff_ne_zero, Ne, tally_eq_zero]
  push Not
  simp only [Nat.pos_iff_ne_zero]

/-- Weights are added up entry by entry. -/
theorem tally_add : tally (fun a => f a + g a) l = tally f l + tally g l := by
  induction l with
  | nil => rfl
  | cons x l ih =>
    simp only [tally_cons, ih]
    omega

/-- Equal weights have equal totals. -/
theorem tally_congr (h : ∀ a ∈ l, f a = g a) : tally f l = tally g l :=
  Nat.le_antisymm (tally_le_tally fun a ha => (h a ha).le) (tally_le_tally fun a ha => (h a ha).ge)

/-- **Replacing one entry while the weights change**: the others gain what `d` allows them. -/
theorem tally_set_le {d : α → ℕ} (hi : l[i]? = some a) (h : ∀ b ∈ l, g b ≤ f b + d b) :
    tally g (l.set i c) + f a ≤ tally f l + g c + tally d l := by
  induction l generalizing i with
  | nil => simp at hi
  | cons x l ih =>
    have hl : ∀ b ∈ l, g b ≤ f b + d b := fun b hb => h b (List.mem_cons_of_mem _ hb)
    cases i with
    | zero =>
      obtain rfl : x = a := by simpa using hi
      have := tally_le_tally (f := g) (g := fun b => f b + d b) hl
      rw [tally_add] at this
      simp only [List.set_cons_zero, tally_cons]
      omega
    | succ i =>
      have := ih (i := i) (by simpa using hi) hl
      have := h x List.mem_cons_self
      simp only [List.set_cons_succ, tally_cons]
      omega

/-- Where no two entries have weight and none has more than 1, neither has the total. -/
theorem tally_le_one (hone : ∀ a ∈ l, f a ≤ 1) (h : l.Pairwise fun a b => 0 < f a → f b = 0) :
    tally f l ≤ 1 := by
  induction l with
  | nil => simp
  | cons x l ih =>
    obtain ⟨hx, hl⟩ := List.pairwise_cons.mp h
    have htail := ih (fun a ha => hone a (List.mem_cons_of_mem _ ha)) hl
    have hhead := hone x List.mem_cons_self
    rw [tally_cons]
    rcases Nat.eq_zero_or_pos (f x) with hzero | hpos
    · omega
    · have := tally_eq_zero.mpr fun a ha => hx a ha hpos
      omega

/-- **Changing the weight of one entry** moves the total by that change, where the entry stands in
the list once. -/
theorem tally_change (hnodup : l.Nodup) (ha : a ∈ l) (h : ∀ b ∈ l, b ≠ a → g b = f b) :
    tally g l + f a = tally f l + g a := by
  induction l with
  | nil => cases ha
  | cons x l ih =>
    obtain ⟨hx, hl⟩ := List.nodup_cons.mp hnodup
    rw [tally_cons, tally_cons]
    rcases List.mem_cons.mp ha with rfl | ha
    · have : tally g l = tally f l := tally_congr fun b hb =>
        h b (List.mem_cons_of_mem _ hb) fun heq => hx (heq ▸ hb)
      omega
    · have hne : x ≠ a := fun heq => hx (heq ▸ ha)
      have := ih hl ha fun b hb => h b (List.mem_cons_of_mem _ hb)
      have := h x List.mem_cons_self hne
      omega

/-- **Changing a value that one entry reads** moves the total by that change. -/
theorem tally_update [DecidableEq α] {β : Type*} {w : β → ℕ} (x : β) (h : α → β)
    (hnodup : l.Nodup) (ha : a ∈ l) :
    tally (fun b => w (Function.update h a x b)) l + w (h a) =
      tally (fun b => w (h b)) l + w x := by
  have hchange := tally_change (f := fun b => w (h b))
    (g := fun b => w (Function.update h a x b)) hnodup ha fun b _ hne => by
      simp only [Function.update_of_ne hne]
  simpa only [Function.update_self] using hchange

/-! ## One stretch of a list replaced -/

@[simp] theorem tally_append {l₁ l₂ : List α} : tally f (l₁ ++ l₂) = tally f l₁ + tally f l₂ := by
  simp [tally]

/-- **`l'` is `l` with one stretch `old` of it replaced by `new`.** -/
def Replaces (old new l l' : List α) : Prop :=
  ∃ l₁ l₂, l = l₁ ++ old ++ l₂ ∧ l' = l₁ ++ new ++ l₂

variable {old new l' : List α}

theorem replaces_eraseIdx (h : l[i]? = some a) : Replaces [a] [] l (l.eraseIdx i) := by
  obtain ⟨hi, rfl⟩ := List.getElem?_eq_some_iff.mp h
  refine ⟨l.take i, l.drop (i + 1), ?_, ?_⟩
  · rw [List.append_assoc, List.singleton_append, ← List.drop_eq_getElem_cons hi,
      List.take_append_drop]
  · rw [List.append_nil, List.eraseIdx_eq_take_drop_succ]

/-- What is kept of a list one of whose entries was replaced. -/
theorem replaces_filterMap_set {β : Type*} {F : α → Option β} (h : l[i]? = some a) (b : α) :
    Replaces (F a).toList (F b).toList (l.filterMap F) ((l.set i b).filterMap F) := by
  obtain ⟨hi, rfl⟩ := List.getElem?_eq_some_iff.mp h
  have hone : ∀ x, [x].filterMap F = (F x).toList := by
    intro x
    cases hx : F x <;> simp [hx]
  have hl : l = l.take i ++ [l[i]] ++ l.drop (i + 1) := by
    rw [List.append_assoc, List.singleton_append, ← List.drop_eq_getElem_cons hi,
      List.take_append_drop]
  refine ⟨(l.take i).filterMap F, (l.drop (i + 1)).filterMap F, ?_, ?_⟩
  · conv_lhs => rw [hl]
    rw [List.filterMap_append, List.filterMap_append, hone]
  · rw [List.set_eq_take_append_cons_drop, if_pos hi, ← List.singleton_append,
      ← List.append_assoc, List.filterMap_append, List.filterMap_append, hone]

/-- **The total moves by what was replaced.** -/
theorem Replaces.tally_eq (h : Replaces old new l l') (f : α → ℕ) :
    tally f l' + tally f old = tally f l + tally f new := by
  obtain ⟨l₁, l₂, rfl, rfl⟩ := h
  simp only [tally_append]
  omega

/-- **Nothing else comes or goes.** -/
theorem Replaces.perm (h : Replaces old new l l') : (l' ++ old).Perm (l ++ new) := by
  obtain ⟨l₁, l₂, rfl, rfl⟩ := h
  have hmoved : (new ++ (l₂ ++ old)).Perm (old ++ l₂ ++ new) :=
    List.perm_append_comm.trans (List.perm_append_comm.append_right new)
  simpa only [List.append_assoc] using hmoved.append_left l₁

theorem Replaces.mem_old (h : Replaces old new l l') (ha : a ∈ old) : a ∈ l := by
  obtain ⟨l₁, l₂, rfl, rfl⟩ := h
  simp [ha]

/-- An entry of the new list is new, or an old one that stood beside what was replaced. -/
theorem Replaces.mem (h : Replaces old new l l') (f : α → ℕ) (ha : a ∈ l') :
    a ∈ new ∨ (a ∈ l ∧ f a + tally f old ≤ tally f l) := by
  obtain ⟨l₁, l₂, rfl, rfl⟩ := h
  rcases List.mem_append.mp ha with ha | ha
  · rcases List.mem_append.mp ha with ha | ha
    · have := le_tally_of_mem (f := f) ha
      simp only [tally_append]
      exact .inr ⟨by simp [ha], by omega⟩
    · exact .inl ha
  · have := le_tally_of_mem (f := f) ha
    simp only [tally_append]
    exact .inr ⟨by simp [ha], by omega⟩

/-- What the replaced and the new entries contribute alike stays what is put together. -/
theorem Replaces.flatMap_congr {β : Type*} {F : α → List β} (h : Replaces old new l l')
    (hF : old.flatMap F = new.flatMap F) : l'.flatMap F = l.flatMap F := by
  obtain ⟨l₁, l₂, rfl, rfl⟩ := h
  simp only [List.flatMap_append, hF]

/-- **Putting together what only one entry contributes to.** Where the stretch replaced carries all
of a weight that every contributing entry has, the new entries are all that contribute. -/
theorem Replaces.flatMap_eq {β : Type*} {F : α → List β} (h : Replaces old new l l')
    (hF : ∀ a, f a = 0 → F a = []) (hold : tally f l ≤ tally f old) :
    l.flatMap F = old.flatMap F ∧ l'.flatMap F = new.flatMap F := by
  obtain ⟨l₁, l₂, rfl, rfl⟩ := h
  simp only [tally_append] at hold
  have hnil : ∀ l₀ : List α, tally f l₀ = 0 → l₀.flatMap F = [] := by
    intro l₀ hzero
    exact List.flatMap_eq_nil_iff.mpr fun a ha => hF a (tally_eq_zero.mp hzero a ha)
  simp only [List.flatMap_append, hnil l₁ (by omega), hnil l₂ (by omega), List.nil_append,
    List.append_nil, and_self]

/-- Counting in a list of lists put together. -/
theorem count_flatMap_eq_tally [DecidableEq α] {β : Type*} {F : β → List α} {l : List β} :
    (l.flatMap F).count a = tally (fun b => (F b).count a) l := by
  rw [List.count_flatMap]
  rfl

end DdingGameServer
