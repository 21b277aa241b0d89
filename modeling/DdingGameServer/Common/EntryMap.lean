import Mathlib.Data.List.AList
/-!
# Maps that are gone through

An `EntryMap κ α` is an association list without duplicate keys: a container that is looked up by
key and gone through entry by entry. `insertNew` is the insertion that refuses a key it already has,
`anyValue` searches the values, and `eraseWhere` is the loop that erases from the map it goes
through. Each has one lemma that says what it does to a lookup; the order of the entries, which a
hash table leaves open, is in none of them.
-/

namespace DdingGameServer

universe u v

/-- **A map that is gone through**, in some order of its entries. -/
abbrev EntryMap (κ : Type u) (α : Type v) := AList fun _ : κ => α

namespace EntryMap

variable {κ : Type u} {α : Type v} [DecidableEq κ] {m : EntryMap κ α} {k k' : κ} {a b : α}
  {p : α → Bool} {rest : List (Sigma fun _ : κ => α)}

/-- Insert at `k`, unless `k` has a value. -/
def insertNew (m : EntryMap κ α) (k : κ) (a : α) : EntryMap κ α :=
  if k ∈ m then m else m.insert k a

omit [DecidableEq κ] in
/-- Some value satisfies `p`. -/
def anyValue (m : EntryMap κ α) (p : α → Bool) : Bool := m.entries.any fun item => p item.2

/-- Go on through `rest`, erasing from the map the entries whose value satisfies `p`. -/
def eraseLoop (p : α → Bool) : List (Sigma fun _ : κ => α) → EntryMap κ α → EntryMap κ α
  | [], m => m
  | item :: rest, m => if p item.2 then eraseLoop p rest (m.erase item.1) else eraseLoop p rest m

/-- Go through the map, erasing the entries whose value satisfies `p`. -/
def eraseWhere (m : EntryMap κ α) (p : α → Bool) : EntryMap κ α := eraseLoop p m.entries m

theorem insertNew_of_mem (h : k ∈ m) : m.insertNew k a = m := if_pos h

theorem lookup_insertNew_self (h : k ∉ m) : (m.insertNew k a).lookup k = some a := by
  rw [insertNew, if_neg h, AList.lookup_insert]

theorem lookup_insertNew_of_ne (h : k' ≠ k) : (m.insertNew k a).lookup k' = m.lookup k' := by
  unfold insertNew
  split
  · rfl
  · exact AList.lookup_insert_ne h

/-- What is found after an insertion was inserted, or there before. -/
theorem lookup_of_lookup_insertNew (h : (m.insertNew k a).lookup k' = some b) :
    k' = k ∧ b = a ∨ m.lookup k' = some b := by
  by_cases hk : k' = k
  · subst hk
    by_cases hmem : k' ∈ m
    · exact .inr (by rwa [insertNew_of_mem hmem] at h)
    · rw [lookup_insertNew_self hmem] at h
      exact .inl ⟨rfl, (Option.some.inj h).symm⟩
  · exact .inr (by rwa [lookup_insertNew_of_ne hk] at h)

/-- **The search finds a value exactly where a lookup does.** -/
theorem anyValue_iff : m.anyValue p = true ↔ ∃ k a, m.lookup k = some a ∧ p a = true := by
  rw [anyValue, List.any_eq_true]
  constructor
  · rintro ⟨⟨k, a⟩, hmem, hp⟩
    exact ⟨k, a, AList.mem_lookup_iff.mpr hmem, hp⟩
  · rintro ⟨k, a, hk, hp⟩
    exact ⟨⟨k, a⟩, AList.mem_lookup_iff.mp hk, hp⟩

/-- A key that is not to be erased keeps its value. -/
theorem lookup_eraseLoop_of_forall (h : ∀ item ∈ rest, item.1 = k → p item.2 = false) :
    (eraseLoop p rest m).lookup k = m.lookup k := by
  induction rest generalizing m with
  | nil => rfl
  | cons item rest ih =>
    have hrest := fun item' hitem' => h item' (List.mem_cons_of_mem item hitem')
    cases hp : p item.2 with
    | false =>
      simp only [eraseLoop, hp, Bool.false_eq_true, if_false]
      exact ih hrest
    | true =>
      have hne : k ≠ item.1 := by
        rintro rfl
        have := h item (List.mem_cons_self ..) rfl
        rw [hp] at this
        cases this
      simp only [eraseLoop, hp, if_true]
      exact (ih hrest).trans (AList.lookup_erase_ne hne)

/-- A key with no value gets none. -/
theorem lookup_eraseLoop_of_none (h : m.lookup k = none) :
    (eraseLoop p rest m).lookup k = none := by
  induction rest generalizing m with
  | nil => exact h
  | cons item rest ih =>
    unfold eraseLoop
    split
    · refine ih ?_
      by_cases hk : k = item.1
      · subst hk
        exact AList.lookup_erase ..
      · exact (AList.lookup_erase_ne hk).trans h
    · exact ih h

/-- A key that is gone past and to be erased is erased. -/
theorem lookup_eraseLoop_of_mem (h : ⟨k, a⟩ ∈ rest) (hp : p a = true) :
    (eraseLoop p rest m).lookup k = none := by
  induction rest generalizing m with
  | nil => cases h
  | cons item rest ih =>
    rcases List.mem_cons.mp h with rfl | h
    · simp only [eraseLoop, hp, if_true]
      exact lookup_eraseLoop_of_none (AList.lookup_erase ..)
    · unfold eraseLoop
      split
      · exact ih h
      · exact ih h

/-- **The loop erases the entries whose value satisfies `p`, and no others.** -/
theorem lookup_eraseWhere :
    (m.eraseWhere p).lookup k = some a ↔ m.lookup k = some a ∧ p a = false := by
  cases hk : m.lookup k with
  | none =>
    rw [eraseWhere, lookup_eraseLoop_of_none hk]
    simp
  | some b =>
    have hmem : ⟨k, b⟩ ∈ m.entries := AList.mem_lookup_iff.mp hk
    cases hp : p b with
    | true =>
      rw [eraseWhere, lookup_eraseLoop_of_mem hmem hp]
      refine iff_of_false (by simp) ?_
      rintro ⟨hab, hfalse⟩
      rw [← Option.some.inj hab, hp] at hfalse
      cases hfalse
    | false =>
      rw [eraseWhere, lookup_eraseLoop_of_forall, hk]
      · refine ⟨fun hab => ⟨hab, ?_⟩, And.left⟩
        rw [← Option.some.inj hab, hp]
      · rintro ⟨k', c⟩ hitem rfl
        have hc : m.lookup k' = some c := AList.mem_lookup_iff.mpr hitem
        rw [hk] at hc
        rw [← Option.some.inj hc, hp]

end EntryMap

end DdingGameServer
