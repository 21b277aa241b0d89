import Mathlib.Data.List.Induction
import Mathlib.Data.List.Nodup
import Mathlib.Tactic.Common
/-!
# The first of each key

`firsts key l` are the elements of `l` that are the first with their key, in their order in `l`. One
more element at the end is dropped if its key is there already, and comes last otherwise
(`firsts_append_singleton`): everything else is an induction from the end of the list with that
step. Nothing here is about any particular program.
-/

namespace DdingGameServer

universe u v

variable {α : Type u} {κ : Type v} [DecidableEq κ] {key : α → κ} {l : List α} {a b : α} {k : κ}

/-- **The first elements of their keys.** -/
def firsts (key : α → κ) (l : List α) : List α := l.eraseDupsBy fun a b => key a = key b

theorem firsts_cons : firsts key (a :: l) = a :: firsts key (l.filter fun b => key b ≠ key a) := by
  simp only [firsts, List.eraseDupsBy_cons, decide_eq_false_iff_not, decide_not]

/-- **The step**: an element behind the list. -/
theorem firsts_append_singleton (l : List α) (a : α) :
    firsts key (l ++ [a]) = if key a ∈ l.map key then firsts key l else firsts key l ++ [a] := by
  induction hn : l.length using Nat.strongRecOn generalizing l with
  | ind n ih =>
    cases l with
    | nil => rfl
    | cons b rest =>
      have hrest : (rest.filter fun c => key c ≠ key b).length < n := by
        rw [← hn, List.length_cons]
        exact Nat.lt_succ_of_le (List.length_filter_le ..)
      rw [List.cons_append, firsts_cons, List.filter_append, firsts_cons, List.map_cons]
      by_cases hab : key a = key b
      · -- what comes behind is filtered out with the key of the head
        rw [if_pos (hab ▸ List.mem_cons_self), List.filter_cons_of_neg (by simpa using hab),
          List.filter_nil, List.append_nil]
      · have hmem : key a ∈ (rest.filter fun c => key c ≠ key b).map key ↔
            key a ∈ key b :: rest.map key := by
          simp only [List.mem_cons, hab, false_or, List.mem_map, List.mem_filter]
          constructor
          · rintro ⟨c, ⟨hc, -⟩, heq⟩
            exact ⟨c, hc, heq⟩
          · rintro ⟨c, hc, heq⟩
            exact ⟨c, ⟨hc, by simpa [heq] using hab⟩, heq⟩
        rw [List.filter_cons_of_pos (by simpa using hab), List.filter_nil, ih _ hrest _ rfl]
        split
        · rw [if_pos (hmem.mp ‹_›)]
        · rw [if_neg (mt hmem.mpr ‹_›)]
          rfl

/-- No key is lost. -/
theorem mem_map_firsts : k ∈ (firsts key l).map key ↔ k ∈ l.map key := by
  induction l using List.reverseRecOn with
  | nil => rfl
  | append_singleton l a ih =>
    rw [firsts_append_singleton, List.map_append, List.mem_append, ← ih]
    split
    · rename_i ha
      constructor
      · exact .inl
      · rintro (h | h)
        · exact h
        · obtain rfl : k = key a := by simpa using h
          exact ih.mpr ha
    · rw [List.map_append, List.mem_append]

/-- None is there twice. -/
theorem nodup_map_firsts : ((firsts key l).map key).Nodup := by
  induction l using List.reverseRecOn with
  | nil => exact List.nodup_nil
  | append_singleton l a ih =>
    rw [firsts_append_singleton]
    split
    · exact ih
    · rename_i ha
      rw [List.map_append, List.map_singleton, ← List.concat_eq_append]
      exact ih.concat (mt mem_map_firsts.mp ha)

/-- **The element of a key** is the first of the list. -/
theorem find?_firsts : (firsts key l).find? (fun a => key a = k) = l.find? fun a => key a = k := by
  induction l using List.reverseRecOn with
  | nil => rfl
  | append_singleton l a ih =>
    rw [firsts_append_singleton]
    split
    · rename_i ha
      rw [ih, List.find?_append]
      by_cases hk : key a = k
      · obtain ⟨b, hb, heq⟩ := List.mem_map.mp ha
        have hsome : (l.find? fun a => key a = k).isSome :=
          List.find?_isSome.mpr ⟨b, hb, by simpa using heq.trans hk⟩
        rw [Option.or_of_isSome hsome]
      · rw [List.find?_cons_of_neg (by simpa using hk), List.find?_nil, Option.or_none]
    · rw [List.find?_append, List.find?_append, ih]

/-- **An element is the first of its key** exactly if it is the one found. -/
theorem mem_firsts_iff : a ∈ firsts key l ↔ l.find? (fun b => key b = key a) = some a := by
  rw [← find?_firsts]
  constructor
  · intro ha
    have hsome : ((firsts key l).find? fun b => key b = key a).isSome :=
      List.find?_isSome.mpr ⟨a, ha, decide_eq_true rfl⟩
    obtain ⟨b, hb⟩ := Option.isSome_iff_exists.mp hsome
    have hkey : key b = key a := by simpa using List.find?_some hb
    rw [hb, List.inj_on_of_nodup_map nodup_map_firsts (List.mem_of_find?_eq_some hb) ha hkey]
  · exact List.mem_of_find?_eq_some

end DdingGameServer
