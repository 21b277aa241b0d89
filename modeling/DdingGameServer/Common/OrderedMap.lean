import Mathlib.Data.List.Nodup
import Mathlib.Order.Lattice
import Mathlib.Tactic.Common
/-!
# Maps in the order of their keys

An `OrderedMap κ α` is a list of entries, their keys strictly ascending: a container that is looked
up by key and gone through in the order of the keys. `emplace` is the insertion that refuses a key it
already has. The place of an entry is the number of keys below its own (`countP_lt_of_getElem?`), so
what is listed along the map is another list exactly if that one has it at these places
(`map_eq_iff`). Nothing here is about any particular program.
-/

namespace DdingGameServer

universe u v w

/-- **A map in the order of its keys.** -/
structure OrderedMap (κ : Type u) (α : Type v) [LinearOrder κ] where
  entries : List (κ × α)
  sorted : entries.Pairwise fun e f => e.1 < f.1

namespace OrderedMap

variable {κ : Type u} {α : Type v} {β : Type w} [LinearOrder κ] {m : OrderedMap κ α} {k : κ}
  {a b : α} {l : List (κ × α)} {e : κ × α}

/-! ## Insertion into a sorted list -/

/-- Insert an entry before the first larger key, unless the key is there. -/
def insertEntry (k : κ) (a : α) : List (κ × α) → List (κ × α)
  | [] => [(k, a)]
  | e :: rest =>
    if k < e.1 then (k, a) :: e :: rest
    else if k = e.1 then e :: rest
    else e :: insertEntry k a rest

/-- A new key is put somewhere. -/
theorem perm_insertEntry (h : k ∉ l.map Prod.fst) : (insertEntry k a l).Perm ((k, a) :: l) := by
  induction l with
  | nil => exact .refl _
  | cons e rest ih =>
    rw [List.map_cons, List.mem_cons, not_or] at h
    rw [insertEntry]
    split
    · exact .refl _
    · rw [if_neg h.1]
      exact ((ih h.2).cons e).trans (.swap _ _ _)

theorem mem_of_mem_insertEntry (h : e ∈ insertEntry k a l) : e = (k, a) ∨ e ∈ l := by
  induction l with
  | nil => exact .inl (List.mem_singleton.mp h)
  | cons f rest ih =>
    rw [insertEntry] at h
    split at h
    · exact List.mem_cons.mp h
    · split at h
      · exact .inr h
      · rcases List.mem_cons.mp h with rfl | h
        · exact .inr List.mem_cons_self
        · exact (ih h).imp_right (List.mem_cons_of_mem f)

theorem mem_keys_insertEntry {k' : κ} :
    k' ∈ (insertEntry k a l).map Prod.fst ↔ k' = k ∨ k' ∈ l.map Prod.fst := by
  induction l with
  | nil => simp [insertEntry]
  | cons e rest ih =>
    rw [insertEntry]
    split
    · exact List.mem_cons
    · split
      · rename_i hk
        rw [List.map_cons, List.mem_cons, hk]
        exact (or_iff_right_of_imp .inl).symm
      · rw [List.map_cons, List.map_cons, List.mem_cons, List.mem_cons, ih]
        exact or_left_comm

/-- **The list stays sorted.** -/
theorem pairwise_insertEntry (hl : l.Pairwise fun e f => e.1 < f.1) :
    (insertEntry k a l).Pairwise fun e f => e.1 < f.1 := by
  induction l with
  | nil => exact List.pairwise_singleton _ _
  | cons e rest ih =>
    obtain ⟨hlt, hrest⟩ := List.pairwise_cons.mp hl
    rw [insertEntry]
    split
    · rename_i hk
      refine List.pairwise_cons.mpr ⟨fun f hf => ?_, hl⟩
      rcases List.mem_cons.mp hf with rfl | hf
      · exact hk
      · exact hk.trans (hlt f hf)
    · rename_i hge
      split
      · exact hl
      · rename_i hne
        refine List.pairwise_cons.mpr ⟨fun f hf => ?_, ih hrest⟩
        rcases mem_of_mem_insertEntry hf with rfl | hf
        · exact lt_of_le_of_ne (not_lt.mp hge) (Ne.symm hne)
        · exact hlt f hf

/-! ## The map -/

/-- The map with no key. -/
def empty : OrderedMap κ α := ⟨[], .nil⟩

/-- The value at `k`. -/
def find (m : OrderedMap κ α) (k : κ) : Option α :=
  (m.entries.find? fun e => e.1 = k).map Prod.snd

/-- Insert at `k`, unless `k` has a value. -/
def emplace (m : OrderedMap κ α) (k : κ) (a : α) : OrderedMap κ α :=
  ⟨insertEntry k a m.entries, pairwise_insertEntry m.sorted⟩

/-- A key is there after an insertion if it was, or was inserted. -/
theorem mem_keys_emplace {k' : κ} :
    k' ∈ (m.emplace k a).entries.map Prod.fst ↔ k' = k ∨ k' ∈ m.entries.map Prod.fst :=
  mem_keys_insertEntry

/-- The number of keys. -/
def size (m : OrderedMap κ α) : ℕ := m.entries.length

theorem isSome_find : (m.find k).isSome = true ↔ k ∈ m.entries.map Prod.fst := by
  simp [find]

/-- **The value of a key** is that of its one entry. -/
theorem find_eq_some_iff : m.find k = some a ↔ (k, a) ∈ m.entries := by
  have hnodup : (m.entries.map Prod.fst).Nodup :=
    List.pairwise_map.mpr (m.sorted.imp fun h => h.ne)
  rw [find, Option.map_eq_some_iff]
  constructor
  · rintro ⟨⟨k', a'⟩, hfind, rfl⟩
    have hk : k' = k := by simpa using List.find?_some hfind
    exact hk ▸ List.mem_of_find?_eq_some hfind
  · intro hmem
    have hsome : (m.find k).isSome = true := isSome_find.mpr (List.mem_map_of_mem hmem)
    obtain ⟨a', ha'⟩ := Option.isSome_iff_exists.mp hsome
    obtain ⟨⟨k'', a''⟩, hfind, rfl⟩ := Option.map_eq_some_iff.mp ha'
    have hk : k'' = k := by simpa using List.find?_some hfind
    subst hk
    have heq := List.inj_on_of_nodup_map hnodup (List.mem_of_find?_eq_some hfind) hmem rfl
    exact ⟨_, hfind, congrArg Prod.snd heq⟩

/-! ## Places -/

/-- **The place of an entry** is the number of keys below its own. -/
theorem countP_lt_of_getElem? {i : ℕ} (hl : l.Pairwise fun e f => e.1 < f.1)
    (h : l[i]? = some e) : l.countP (fun f => f.1 < e.1) = i := by
  induction l generalizing i with
  | nil => cases h
  | cons f rest ih =>
    obtain ⟨hlt, hrest⟩ := List.pairwise_cons.mp hl
    rw [List.countP_cons]
    cases i with
    | zero =>
      obtain rfl : f = e := by simpa using h
      have hnone : rest.countP (fun g => g.1 < f.1) = 0 :=
        List.countP_eq_zero.mpr fun g hg => by simpa using (hlt g hg).le
      rw [hnone, if_neg (by simp)]
    | succ i =>
      rw [List.getElem?_cons_succ] at h
      have hfe := hlt e (List.mem_of_getElem? h)
      rw [ih hrest h, if_pos (by simpa using hfe)]

/-- **What is listed along the map** is another list of its length exactly if that one has every
entry's item at the entry's place. -/
theorem map_eq_iff {f : κ × α → β} {items : List β} (hlen : items.length = m.entries.length) :
    m.entries.map f = items ↔
      ∀ e ∈ m.entries, items[m.entries.countP fun g => g.1 < e.1]? = some (f e) := by
  constructor
  · rintro rfl e he
    obtain ⟨i, hi⟩ := List.mem_iff_getElem?.mp he
    rw [countP_lt_of_getElem? m.sorted hi, List.getElem?_map, hi]
    rfl
  · intro h
    refine List.ext_getElem? fun i => ?_
    rw [List.getElem?_map]
    cases hi : m.entries[i]? with
    | none =>
      have hle : m.entries.length ≤ i := List.getElem?_eq_none_iff.mp hi
      exact (List.getElem?_eq_none_iff.mpr (hlen ▸ hle)).symm
    | some e =>
      have hplace := h e (List.mem_of_getElem? hi)
      rw [countP_lt_of_getElem? m.sorted hi] at hplace
      exact hplace.symm

end OrderedMap

end DdingGameServer
