import DdingGameServer.Common.MapCalls
import DdingGameServer.Common.System
import DdingGameServer.Common.Tally
/-!
# ZoneManager — zones, and what is written about them

`InsertZone`, `DeleteZone` and `GetZone` work on one map under one lock, and the first two write a
record of what they did before they leave it. The text of a record is a literal to which the id is
added: that is an offset into the literal, and the text is what is left of it behind the first `id`
characters. Where the id is negative or beyond the end of the literal, the pointer is a wild one,
and what reading from it does is not followed: such a call has no step here. `DeleteZone` writes its
record twice.

Any number of threads call; each call is one step, as it holds `zoneMapLock`.
-/

namespace DdingGameServer

namespace GameServer

universe u

/-- An `int`. -/
abbrev ZoneDataId := Int32

/-- A literal and an `int`, added: a pointer into the literal, read to its end. `none` is a pointer
that is not into it. -/
def addToLiteral (literal : String) (n : ZoneDataId) : Option (List Char) :=
  if 0 ≤ n.toInt ∧ n.toInt ≤ literal.length then some (literal.toList.drop n.toInt.toNat) else none

/-- The text of a record: the literal of one of the outcomes, and the id. -/
def ServerLog.duplicate (inZoneId : ZoneDataId) : Option (List Char) :=
  addToLiteral "Duplicate zone ZoneId " inZoneId

def ServerLog.inserted (inZoneId : ZoneDataId) : Option (List Char) :=
  addToLiteral "Zone inserted ZoneId " inZoneId

def ServerLog.deleteFailed (inZoneId : ZoneDataId) : Option (List Char) :=
  addToLiteral "Zone delete failed. ZoneId " inZoneId

def ServerLog.deleteSuccessed (inZoneId : ZoneDataId) : Option (List Char) :=
  addToLiteral "Zone delete successed. ZoneId " inZoneId

/-- **`ZoneManager`**, and the texts of the records it has written. -/
structure ZoneManager (Zone : Type u) where
  zoneMap : KeyMap ZoneDataId Zone
  written : List (List Char)

variable {Zone : Type u}

inductive ZoneEvent (Zone : Type u)
  | insertZone (inZoneId : ZoneDataId) (inZone : Zone)
  | deleteZone (inZoneId : ZoneDataId)
  deriving DecidableEq

namespace ZoneManager

variable (m : ZoneManager Zone)

def insertZone (inZoneId : ZoneDataId) (inZone : Zone) : Option (ZoneManager Zone) :=
  let log := if (m.zoneMap.find inZoneId).isSome then ServerLog.duplicate inZoneId
    else ServerLog.inserted inZoneId
  -- `insert` leaves an entry that is there
  log.map fun logString =>
    { zoneMap := m.zoneMap.insert inZoneId inZone
      written := m.written ++ [logString] }

def deleteZone (inZoneId : ZoneDataId) : Option (ZoneManager Zone) :=
  let log := if (m.zoneMap.find inZoneId).isSome then ServerLog.deleteSuccessed inZoneId
    else ServerLog.deleteFailed inZoneId
  -- the branches write one record each, and so does the end of the function
  log.map fun logString =>
    { zoneMap := m.zoneMap.erase inZoneId
      written := m.written ++ [logString] ++ [logString] }

def getZone (findZoneId : ZoneDataId) : Option Zone := m.zoneMap.find findZoneId

def step : ZoneEvent Zone → Option (ZoneManager Zone)
  | .insertZone inZoneId inZone => m.insertZone inZoneId inZone
  | .deleteZone inZoneId => m.deleteZone inZoneId

/-- Before the first call. -/
def start : ZoneManager Zone := ⟨.empty, []⟩

end ZoneManager

/-- The manager as a transition system. -/
def zones : System (ZoneManager Zone) (ZoneEvent Zone) where
  Init m := m = .start
  step := ZoneManager.step

namespace ZoneEvent

/-- The call on the map that an event is. -/
def call : ZoneEvent Zone → MapCall ZoneDataId Zone
  | .insertZone inZoneId inZone => .insert inZoneId inZone
  | .deleteZone inZoneId => .erase inZoneId

/-- How many records it writes. -/
def records : ZoneEvent Zone → ℕ
  | .insertZone _ _ => 1
  | .deleteZone _ => 2

def zoneId : ZoneEvent Zone → ZoneDataId
  | .insertZone inZoneId _ => inZoneId
  | .deleteZone inZoneId => inZoneId

end ZoneEvent

variable {m m' : ZoneManager Zone} {e : ZoneEvent Zone} {es : List (ZoneEvent Zone)}
  {past : List (MapCall ZoneDataId Zone)} {literal : String} {text : List Char}

/-- **The literal an event writes**, by what was called before. -/
inductive Writes (past : List (MapCall ZoneDataId Zone)) : ZoneEvent Zone → String → Prop
  | inserted {inZoneId : ZoneDataId} {inZone : Zone} : MapCall.Free inZoneId past →
      Writes past (.insertZone inZoneId inZone) "Zone inserted ZoneId "
  | duplicate {inZoneId : ZoneDataId} {inZone : Zone} : ¬ MapCall.Free inZoneId past →
      Writes past (.insertZone inZoneId inZone) "Duplicate zone ZoneId "
  | deleteFailed {inZoneId : ZoneDataId} : MapCall.Free inZoneId past →
      Writes past (.deleteZone inZoneId) "Zone delete failed. ZoneId "
  | deleteSuccessed {inZoneId : ZoneDataId} : ¬ MapCall.Free inZoneId past →
      Writes past (.deleteZone inZoneId) "Zone delete successed. ZoneId "

theorem not_digit_of_all {s : String} (h : (s.toList.all fun c => !c.isDigit) = true) :
    ∀ c ∈ s.toList, c.isDigit = false := fun c hc => by
  simpa using List.all_eq_true.mp h c hc

/-- A literal has no digit. -/
theorem Writes.not_digit (h : Writes past e literal) : ∀ c ∈ literal.toList, c.isDigit = false := by
  cases h <;> exact not_digit_of_all (by decide)

/-- Nor has what is left of it. -/
theorem not_digit_of_addToLiteral {n : ZoneDataId}
    (hliteral : ∀ c ∈ literal.toList, c.isDigit = false) (h : addToLiteral literal n = some text) :
    ∀ c ∈ text, c.isDigit = false := by
  unfold addToLiteral at h
  split at h
  · obtain rfl := Option.some.inj h
    exact fun c hc => hliteral c (List.mem_of_mem_drop hc)
  · cases h

/-- **Every step**: the map is that of one call more, and the record of its outcome is written. -/
theorem writes_of_step (hm : m.zoneMap = .replay past) (hs : m.step e = some m') :
    m'.zoneMap = .replay (past ++ [e.call]) ∧ ∃ literal text, Writes past e literal ∧
      addToLiteral literal e.zoneId = some text ∧
      m'.written = m.written ++ List.replicate e.records text := by
  have hfree : ∀ k, ((m.zoneMap.find k).isSome = true) ↔ ¬ MapCall.Free k past := by
    intro k
    rw [← KeyMap.find_replay_eq_none, ← hm, ← Option.ne_none_iff_isSome]
  rw [KeyMap.replay_append_singleton, ← hm]
  cases e with
  | insertZone inZoneId inZone =>
    obtain ⟨text, htext, rfl⟩ := Option.map_eq_some_iff.mp hs
    refine ⟨rfl, ?_⟩
    by_cases hsome : (m.zoneMap.find inZoneId).isSome = true
    · rw [if_pos hsome] at htext
      exact ⟨_, text, .duplicate ((hfree inZoneId).mp hsome), htext, rfl⟩
    · rw [if_neg hsome] at htext
      exact ⟨_, text, .inserted (not_not.mp (mt (hfree inZoneId).mpr hsome)), htext, rfl⟩
  | deleteZone inZoneId =>
    obtain ⟨text, htext, rfl⟩ := Option.map_eq_some_iff.mp hs
    refine ⟨rfl, ?_⟩
    have hwritten : m.written ++ [text] ++ [text] = m.written ++ List.replicate 2 text := by
      rw [List.append_assoc]
      rfl
    by_cases hsome : (m.zoneMap.find inZoneId).isSome = true
    · rw [if_pos hsome] at htext
      exact ⟨_, text, .deleteSuccessed ((hfree inZoneId).mp hsome), htext, hwritten⟩
    · rw [if_neg hsome] at htext
      exact ⟨_, text, .deleteFailed (not_not.mp (mt (hfree inZoneId).mpr hsome)), htext, hwritten⟩

/-- **Where a call is followed**: exactly where its id is a place in the literal it writes, or the
end of it. -/
theorem step_isSome_iff (hm : m.zoneMap = .replay past) (hwrites : Writes past e literal) :
    (m.step e).isSome ↔ 0 ≤ e.zoneId.toInt ∧ e.zoneId.toInt ≤ literal.length := by
  have hfree : ∀ k, MapCall.Free k past ↔ ¬ (m.zoneMap.find k).isSome = true := by
    intro k
    rw [← KeyMap.find_replay_eq_none, ← hm, ← Option.not_isSome_iff_eq_none]
  have hliteral : (m.step e).isSome = (addToLiteral literal e.zoneId).isSome := by
    cases hwrites with
    | inserted h | deleteFailed h =>
      simp only [ZoneManager.step, ZoneManager.insertZone, ZoneManager.deleteZone,
        if_neg ((hfree _).mp h), Option.isSome_map]
      rfl
    | duplicate h | deleteSuccessed h =>
      simp only [ZoneManager.step, ZoneManager.insertZone, ZoneManager.deleteZone,
        if_pos (not_not.mp (mt (hfree _).mpr h)), Option.isSome_map]
      rfl
  rw [hliteral, addToLiteral]
  split
  · exact iff_of_true rfl ‹_›
  · exact iff_of_false Bool.false_ne_true ‹_›

/-- What a run adds to what was written. -/
structure Written (past : List (MapCall ZoneDataId Zone)) (es : List (ZoneEvent Zone))
    (m m' : ZoneManager Zone) (more : List (List Char)) : Prop where
  zoneMap : m'.zoneMap = .replay (past ++ es.map ZoneEvent.call)
  written : m'.written = m.written ++ more
  length : more.length = (es.map ZoneEvent.records).sum
  not_digit : ∀ text ∈ more, ∀ c ∈ text, c.isDigit = false

/-- **Every run writes the records of its events**, and nothing else. -/
theorem exists_written (hm : m.zoneMap = .replay past) (hr : zones.run m es = some m') :
    ∃ more, Written past es m m' more := by
  induction es generalizing m past with
  | nil =>
    obtain rfl : m = m' := by simpa using hr
    exact ⟨[], by simpa using hm, by simp, rfl, fun _ h => absurd h List.not_mem_nil⟩
  | cons e es ih =>
    obtain ⟨t, ht, hrest⟩ := System.run_cons_eq_some.mp hr
    obtain ⟨hzoneMap, literal, text, hwrites, htext, hwritten⟩ := writes_of_step hm ht
    obtain ⟨more, h⟩ := ih hzoneMap hrest
    refine ⟨List.replicate e.records text ++ more, ?_, ?_, ?_, ?_⟩
    · rw [h.zoneMap, List.map_cons, List.append_assoc, List.singleton_append]
    · rw [h.written, hwritten, List.append_assoc]
    · rw [List.length_append, List.length_replicate, h.length, List.map_cons, List.sum_cons]
    · intro text' hmem
      rcases List.mem_append.mp hmem with hmem | hmem
      · obtain rfl := List.eq_of_mem_replicate hmem
        exact not_digit_of_addToLiteral hwrites.not_digit htext
      · exact h.not_digit text' hmem

/-- **The zones over every run** whose calls are followed: after each, a call is where its id is a
place in the literal it would write. The zone found is the first that was inserted since its id was
last deleted. The records are those of the calls, in their order, two for a deletion; each is the
literal of what came of its call, from the place the id says on, so that no record ever tells an id.
-/
theorem zones_of_run (hr : zones.run .start es = some m) :
    (∀ e literal, Writes (es.map ZoneEvent.call) e literal →
      ((m.step e).isSome ↔ 0 ≤ e.zoneId.toInt ∧ e.zoneId.toInt ≤ literal.length)) ∧
    (∀ findZoneId zone, m.getZone findZoneId = some zone ↔
      MapCall.Holds findZoneId zone (es.map ZoneEvent.call)) ∧
    (∀ es₁ e es₂, es = es₁ ++ e :: es₂ → ∃ literal text before after,
      Writes (es₁.map ZoneEvent.call) e literal ∧ addToLiteral literal e.zoneId = some text ∧
      m.written = before ++ List.replicate e.records text ++ after ∧
      before.length = (es₁.map ZoneEvent.records).sum) ∧
    m.written.length = (es.map ZoneEvent.records).sum ∧
    ∀ text ∈ m.written, ∀ c ∈ text, c.isDigit = false := by
  have hstart : (ZoneManager.start : ZoneManager Zone).zoneMap = .replay [] := rfl
  obtain ⟨more, h⟩ := exists_written hstart hr
  have hwritten : m.written = more := h.written
  refine ⟨fun e literal => step_isSome_iff h.zoneMap, fun findZoneId zone => ?_, ?_,
    hwritten ▸ h.length, hwritten ▸ h.not_digit⟩
  · rw [ZoneManager.getZone, h.zoneMap, List.nil_append, KeyMap.find_replay_eq_some]
  · rintro es₁ e es₂ rfl
    obtain ⟨t, ht, hrest⟩ := System.run_append_eq_some.mp hr
    obtain ⟨u, hu, hlast⟩ := System.run_cons_eq_some.mp hrest
    obtain ⟨before, hbefore⟩ := exists_written hstart ht
    obtain ⟨hzoneMap, literal, text, hwrites, htext, hstep⟩ := writes_of_step hbefore.zoneMap hu
    obtain ⟨after, hafter⟩ := exists_written hzoneMap hlast
    refine ⟨literal, text, before, after, hwrites, htext, ?_, hbefore.length⟩
    rw [hafter.written, hstep, hbefore.written]
    rfl

/-- A zone that is inserted, and another under its id. -/
theorem zones_duplicate : ∃ m, zones.run .start [.insertZone 5 'a', .insertZone 5 'b'] = some m ∧
    m.getZone 5 = some 'a' ∧
    m.written = ["inserted ZoneId ".toList, "cate zone ZoneId ".toList] := by
  obtain ⟨m, hr, hwritten⟩ : ∃ m, zones.run .start [.insertZone 5 'a', .insertZone 5 'b'] = some m ∧
      m.written = ["inserted ZoneId ".toList, "cate zone ZoneId ".toList] :=
    ⟨_, rfl, by decide⟩
  obtain ⟨-, hget, -, -, -⟩ := zones_of_run hr
  refine ⟨m, hr, (hget 5 'a').mpr ⟨[], [.insert 5 'b'], rfl, MapCall.free_nil, ?_⟩, hwritten⟩
  simp

end GameServer

end DdingGameServer
