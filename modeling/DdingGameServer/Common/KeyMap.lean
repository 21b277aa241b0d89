import Mathlib.Logic.Function.Basic
/-!
# Maps with an insertion that keeps what is there

`KeyMap κ α` is a map given by its lookup. `insert` is the insertion of an associative container
that refuses a key it already has, `assign` the one that overwrites, `erase` forgets a key. Each
operation has one lemma at its own key and one at every other. `insertAll` inserts a list, and
`Admits` says that it finds every key free.
-/

namespace DdingGameServer

universe u v

/-- **A map from keys to values**, given by its lookup. -/
@[ext]
structure KeyMap (κ : Type u) (α : Type v) where
  find : κ → Option α

namespace KeyMap

variable {κ : Type u} {α : Type v}

/-- The map with no key. -/
def empty : KeyMap κ α := ⟨fun _ => none⟩

@[simp] theorem find_empty (k : κ) : (empty : KeyMap κ α).find k = none := rfl

variable [DecidableEq κ] {m : KeyMap κ α} {k k' : κ} {a b : α}

/-- Overwrite the value at `k`. -/
def assign (m : KeyMap κ α) (k : κ) (a : α) : KeyMap κ α :=
  ⟨Function.update m.find k (some a)⟩

/-- Insert at `k`, unless `k` has a value. -/
def insert (m : KeyMap κ α) (k : κ) (a : α) : KeyMap κ α :=
  match m.find k with
  | none => m.assign k a
  | some _ => m

/-- Forget `k`. -/
def erase (m : KeyMap κ α) (k : κ) : KeyMap κ α :=
  ⟨Function.update m.find k none⟩

@[simp] theorem find_assign_self : (m.assign k a).find k = some a := by
  simp [assign]

theorem find_assign_of_ne (h : k' ≠ k) : (m.assign k a).find k' = m.find k' := by
  simp [assign, h]

@[simp] theorem find_erase_self : (m.erase k).find k = none := by
  simp [erase]

theorem find_erase_of_ne (h : k' ≠ k) : (m.erase k).find k' = m.find k' := by
  simp [erase, h]

/-- Forgetting never finds anything new. -/
theorem find_of_find_erase (h : (m.erase k).find k' = some a) : m.find k' = some a := by
  by_cases hk : k' = k
  · subst hk
    rw [find_erase_self] at h
    exact nomatch h
  · rwa [find_erase_of_ne hk] at h

/-- Forgetting a key that has no value changes nothing. -/
theorem erase_of_none (h : m.find k = none) : m.erase k = m := by
  rw [erase, ← h, Function.update_eq_self]

/-- What is found after overwriting. -/
theorem find_assign_eq_some :
    (m.assign k a).find k' = some b ↔ k' = k ∧ a = b ∨ k' ≠ k ∧ m.find k' = some b := by
  by_cases h : k' = k
  · subst h
    simp
  · simp [find_assign_of_ne h, h]

/-- What is found after forgetting. -/
theorem find_erase_eq_some :
    (m.erase k).find k' = some b ↔ k' ≠ k ∧ m.find k' = some b := by
  by_cases h : k' = k
  · subst h
    simp
  · simp [find_erase_of_ne h, h]

theorem find_erase_of_none (h : m.find k' = none) : (m.erase k).find k' = none := by
  by_cases hk : k' = k
  · subst hk
    exact find_erase_self
  · rwa [find_erase_of_ne hk]

theorem insert_of_none (h : m.find k = none) : m.insert k a = m.assign k a := by
  simp [insert, h]

/-- **A key that is taken keeps its value.** -/
theorem insert_of_some (h : m.find k = some b) : m.insert k a = m := by
  simp [insert, h]

theorem find_insert_of_ne (h : k' ≠ k) : (m.insert k a).find k' = m.find k' := by
  unfold insert
  split
  · exact find_assign_of_ne h
  · rfl

/-- What is found after an insertion was there before, or is what was inserted at a free key. -/
theorem find_insert_eq_some :
    (m.insert k a).find k' = some b ↔
      m.find k' = some b ∨ (k' = k ∧ m.find k = none ∧ a = b) := by
  cases hk : m.find k with
  | none =>
    rw [insert_of_none hk]
    by_cases h : k' = k
    · subst h
      simp [hk]
    · simp [find_assign_of_ne h, h]
  | some c =>
    rw [insert_of_some hk]
    simp

/-- What is found after an insertion: what was there before, or else what was inserted. -/
theorem find_insert :
    (m.insert k a).find k' = (m.find k').or (if k = k' then some a else none) := by
  by_cases hk : k = k'
  · subst hk
    cases h : m.find k with
    | none => rw [insert_of_none h, find_assign_self, if_pos rfl, Option.none_or]
    | some b => rw [insert_of_some h, h, Option.some_or]
  · rw [find_insert_of_ne (Ne.symm hk), if_neg hk, Option.or_none]

/-- After an insertion its key has a value, and every other key as before. -/
theorem isSome_find_insert :
    ((m.insert k a).find k').isSome = true ↔ k' = k ∨ (m.find k').isSome = true := by
  by_cases hk : k' = k
  · subst hk
    refine iff_of_true ?_ (.inl rfl)
    cases h : m.find k' with
    | none => rw [insert_of_none h, find_assign_self, Option.isSome_some]
    | some b => rw [insert_of_some h, h, Option.isSome_some]
  · rw [find_insert_of_ne hk, or_iff_right hk]

/-- After forgetting a key it has none. -/
theorem isSome_find_erase :
    ((m.erase k).find k').isSome = true ↔ k' ≠ k ∧ (m.find k').isSome = true := by
  by_cases hk : k' = k
  · subst hk
    rw [find_erase_self]
    simp
  · rw [find_erase_of_ne hk, and_iff_right hk]

/-! ## The insertion of a list -/

variable {key : α → κ} {l : List α}

/-- Insert the elements of a list, each under its key. -/
def insertAll (key : α → κ) (m : KeyMap κ α) (l : List α) : KeyMap κ α :=
  l.foldl (fun m a => m.insert (key a) a) m

/-- **Every element finds its key free**: the keys are pairwise distinct, and none is taken. -/
def Admits (key : α → κ) (m : KeyMap κ α) (l : List α) : Prop :=
  (l.map key).Nodup ∧ ∀ a ∈ l, m.find (key a) = none

@[simp] theorem insertAll_nil : m.insertAll key [] = m := rfl

@[simp] theorem insertAll_cons :
    m.insertAll key (a :: l) = (m.insert (key a) a).insertAll key l := rfl

/-- **What is found after inserting a list**: what was there before, or else the first element of
the list with that key. -/
theorem find_insertAll :
    (m.insertAll key l).find k = (m.find k).or (l.find? fun a => key a = k) := by
  induction l generalizing m with
  | nil => rw [insertAll_nil, List.find?_nil, Option.or_none]
  | cons a l ih =>
    rw [insertAll_cons, ih, find_insert, Option.or_assoc]
    by_cases hk : key a = k
    · rw [if_pos hk, List.find?_cons_of_pos (by simpa using hk), Option.some_or]
    · rw [if_neg hk, List.find?_cons_of_neg (by simpa using hk), Option.none_or]

omit [DecidableEq κ] in
theorem admits_nil : m.Admits key [] :=
  ⟨List.nodup_nil, fun _ h => nomatch h⟩

/-- A list finds its keys free where its head does, and its tail does after the head is inserted. -/
theorem admits_cons :
    m.Admits key (a :: l) ↔ m.find (key a) = none ∧ (m.insert (key a) a).Admits key l := by
  unfold Admits
  rw [List.map_cons, List.nodup_cons, List.forall_mem_cons]
  constructor
  · rintro ⟨⟨hnotMem, hnodup⟩, hfree, hrest⟩
    refine ⟨hfree, hnodup, fun b hb => ?_⟩
    have hne : key b ≠ key a := fun h => hnotMem (h ▸ List.mem_map_of_mem hb)
    rw [find_insert_of_ne hne]
    exact hrest b hb
  · rintro ⟨hfree, hnodup, hrest⟩
    rw [insert_of_none hfree] at hrest
    have hne : ∀ b ∈ l, key b ≠ key a := by
      intro b hb heq
      have htaken := hrest b hb
      rw [heq, find_assign_self] at htaken
      cases htaken
    refine ⟨⟨fun hmem => ?_, hnodup⟩, hfree, fun b hb => ?_⟩
    · obtain ⟨b, hb, heq⟩ := List.mem_map.mp hmem
      exact hne b hb heq
    · have hb' := hrest b hb
      rwa [find_assign_of_ne (hne b hb)] at hb'

end KeyMap

end DdingGameServer
