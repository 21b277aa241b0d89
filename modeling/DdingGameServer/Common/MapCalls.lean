import Mathlib.Data.List.Induction
import DdingGameServer.Common.KeyMap
/-!
# A map as a history of its calls

The calls that change a map are insertions, which keep what is there, and removals. `replay` makes a
list of them, and the map it leaves is read off the list: a key has the value of the first insertion
since its last removal (`find_replay_eq_some`), and none where there was no such insertion
(`find_replay_eq_none`).
-/

namespace DdingGameServer

universe u v

/-- A call that changes a map. -/
inductive MapCall (κ : Type u) (α : Type v)
  | insert (k : κ) (a : α)
  | erase (k : κ)
  deriving DecidableEq, Repr

namespace MapCall

variable {κ : Type u} {α : Type v}

/-- **No insertion since the last removal**: behind every insertion of the key there is a removal. -/
def Free (k : κ) (calls : List (MapCall κ α)) : Prop :=
  ∀ before a after, calls = before ++ .insert k a :: after → .erase k ∈ after

/-- **The first insertion since the last removal** is one of `a`. -/
def Holds (k : κ) (a : α) (calls : List (MapCall κ α)) : Prop :=
  ∃ before after, calls = before ++ .insert k a :: after ∧ Free k before ∧ .erase k ∉ after

variable {k k' : κ} {a b : α} {calls : List (MapCall κ α)} {call : MapCall κ α}

theorem free_nil : Free k ([] : List (MapCall κ α)) :=
  fun before a after h => absurd h.symm (by simp)

/-- A history that is split before its last call. -/
theorem append_singleton_eq {before after : List (MapCall κ α)} {call' : MapCall κ α}
    (h : calls ++ [call] = before ++ call' :: after) :
    after = [] ∧ calls = before ∧ call = call' ∨
      ∃ after', after = after' ++ [call] ∧ calls = before ++ call' :: after' := by
  induction after using List.reverseRecOn with
  | nil =>
    obtain ⟨rfl, hcall⟩ := List.append_inj' h rfl
    exact .inl ⟨rfl, rfl, (List.cons.inj hcall).1⟩
  | append_singleton after last _ =>
    rw [← List.cons_append, ← List.append_assoc] at h
    obtain ⟨rfl, hlast⟩ := List.append_inj' h rfl
    obtain rfl := (List.cons.inj hlast).1
    exact .inr ⟨after, rfl, rfl⟩

/-- A removal frees its key. -/
theorem free_erase : Free k (calls ++ [.erase k]) := by
  intro before a after h
  rcases append_singleton_eq h with ⟨-, -, hcall⟩ | ⟨after', rfl, -⟩
  · cases hcall
  · exact List.mem_append_right _ (List.mem_singleton_self _)

/-- An insertion of it does not. -/
theorem not_free_insert : ¬ Free k (calls ++ [.insert k a]) :=
  fun h => List.not_mem_nil (h calls a [] rfl)

/-- A call about another key changes nothing. -/
theorem free_append_of_ne (hinsert : ∀ a, call ≠ .insert k a) (herase : call ≠ .erase k) :
    Free k (calls ++ [call]) ↔ Free k calls := by
  constructor
  · intro h before a after heq
    have hmem := h before a (after ++ [call]) (by rw [heq]; simp)
    rcases List.mem_append.mp hmem with hmem | hmem
    · exact hmem
    · exact absurd (List.mem_singleton.mp hmem).symm herase
  · intro h before a after heq
    rcases append_singleton_eq heq with ⟨-, -, hcall⟩ | ⟨after', rfl, hcalls⟩
    · exact absurd hcall (hinsert a)
    · exact List.mem_append_left _ (h before a after' hcalls)

/-- What a key holds stays until its next removal. -/
theorem Holds.append (h : Holds k a calls) (herase : call ≠ .erase k) :
    Holds k a (calls ++ [call]) := by
  obtain ⟨before, after, rfl, hfree, hnot⟩ := h
  refine ⟨before, after ++ [call], by simp, hfree, fun hmem => ?_⟩
  rcases List.mem_append.mp hmem with hmem | hmem
  · exact hnot hmem
  · exact herase (List.mem_singleton.mp hmem).symm

/-- **The last call decides**, or what was there before it does. -/
theorem holds_append :
    Holds k a (calls ++ [call]) ↔
      call ≠ .erase k ∧ Holds k a calls ∨ call = .insert k a ∧ Free k calls := by
  constructor
  · rintro ⟨before, after, heq, hfree, hnot⟩
    rcases append_singleton_eq heq with ⟨rfl, rfl, hcall⟩ | ⟨after', rfl, hcalls⟩
    · exact .inr ⟨hcall, hfree⟩
    · refine .inl ⟨fun hcall => hnot ?_, before, after', hcalls, hfree,
        fun hmem => hnot (List.mem_append_left _ hmem)⟩
      rw [hcall]
      exact List.mem_append_right _ (List.mem_singleton_self _)
  · rintro (⟨herase, h⟩ | ⟨rfl, hfree⟩)
    · exact h.append herase
    · exact ⟨calls, [], rfl, hfree, List.not_mem_nil⟩

theorem not_holds_nil : ¬ Holds k a ([] : List (MapCall κ α)) := by
  rintro ⟨before, after, h, -⟩
  exact absurd h.symm (by simp)

end MapCall

namespace KeyMap

variable {κ : Type u} {α : Type v} [DecidableEq κ] {k : κ} {a : α} {calls : List (MapCall κ α)}

/-- A call on a map. -/
def perform (m : KeyMap κ α) : MapCall κ α → KeyMap κ α
  | .insert k a => m.insert k a
  | .erase k => m.erase k

/-- The map a list of calls leaves. -/
def replay (calls : List (MapCall κ α)) : KeyMap κ α := calls.foldl perform empty

theorem replay_append_singleton (calls : List (MapCall κ α)) (call : MapCall κ α) :
    replay (calls ++ [call]) = (replay calls).perform call := by
  rw [replay, List.foldl_append]
  rfl

/-- Both readings of a history, together. -/
theorem find_replay (calls : List (MapCall κ α)) :
    (∀ a, (replay calls).find k = some a ↔ MapCall.Holds k a calls) ∧
      ((replay calls).find k = none ↔ MapCall.Free k calls) := by
  induction calls using List.reverseRecOn with
  | nil => exact ⟨fun a => iff_of_false (by simp [replay]) MapCall.not_holds_nil,
      iff_of_true rfl MapCall.free_nil⟩
  | append_singleton calls call ih =>
    obtain ⟨ihsome, ihnone⟩ := ih
    rw [replay_append_singleton]
    cases call with
    | erase k' =>
      by_cases hk : k = k'
      · subst hk
        simp only [perform, find_erase_self, MapCall.holds_append]
        refine ⟨fun a => iff_of_false (by simp) ?_, iff_of_true trivial MapCall.free_erase⟩
        rintro (⟨hne, -⟩ | ⟨hcall, -⟩)
        · exact hne rfl
        · cases hcall
      · simp only [perform, find_erase_of_ne hk, MapCall.holds_append, ihsome]
        refine ⟨fun a => ⟨fun h => .inl ⟨?_, h⟩, ?_⟩, ihnone.trans ?_⟩
        · rintro ⟨rfl⟩
          exact hk rfl
        · rintro (⟨-, h⟩ | ⟨hcall, -⟩)
          · exact h
          · cases hcall
        · refine (MapCall.free_append_of_ne (fun a h => by cases h) ?_).symm
          rintro ⟨rfl⟩
          exact hk rfl
    | insert k' b =>
      simp only [perform, find_insert]
      by_cases hk : k = k'
      · subst hk
        cases hfind : (replay calls).find k with
        | none =>
          have hfree := ihnone.mp hfind
          refine ⟨fun a => ?_, iff_of_false (by simp) MapCall.not_free_insert⟩
          simp only [MapCall.holds_append, ← ihsome, hfind, hfree]
          simp [eq_comm]
        | some c =>
          have hnot : ¬ MapCall.Free k calls := by
            rw [← ihnone, hfind]
            simp
          refine ⟨fun a => ?_, iff_of_false (by simp) MapCall.not_free_insert⟩
          simp only [MapCall.holds_append, ← ihsome, hfind, hnot]
          simp
      · have hk' : ¬ k' = k := fun h => hk h.symm
        simp only [if_neg hk', Option.or_none, MapCall.holds_append, ihsome]
        refine ⟨fun a => ⟨fun h => .inl ⟨fun hcall => (by cases hcall), h⟩, ?_⟩, ihnone.trans ?_⟩
        · rintro (⟨-, h⟩ | ⟨hcall, -⟩)
          · exact h
          · exact absurd (MapCall.insert.inj hcall).1 hk'
        · exact (MapCall.free_append_of_ne (fun a h => hk' (MapCall.insert.inj h).1)
            (fun h => by cases h)).symm

/-- **A key has the value of the first insertion since its last removal.** -/
theorem find_replay_eq_some : (replay calls).find k = some a ↔ MapCall.Holds k a calls :=
  (find_replay calls).1 a

/-- **And none where there was no such insertion.** -/
theorem find_replay_eq_none : (replay calls).find k = none ↔ MapCall.Free k calls :=
  (find_replay calls).2

/-- **Where all insertions of a key are the same**, the key holds that value from any of them on to its
next removal. -/
theorem holds_of_insertions (h : ∀ b, .insert k b ∈ calls → b = a) : MapCall.Holds k a calls ↔
    ∃ before after, calls = before ++ .insert k a :: after ∧ .erase k ∉ after := by
  constructor
  · rintro ⟨before, after, hcalls, -, hnot⟩
    exact ⟨before, after, hcalls, hnot⟩
  · rintro ⟨before, after, hcalls, hnot⟩
    cases hfind : (replay calls).find k with
    | none => exact absurd (find_replay_eq_none.mp hfind before a after hcalls) hnot
    | some b =>
      have hholds := find_replay_eq_some.mp hfind
      obtain ⟨before', after', hcalls', -⟩ := hholds
      obtain rfl := h b (by rw [hcalls']; simp)
      exact find_replay_eq_some.mp hfind

end KeyMap

end DdingGameServer
