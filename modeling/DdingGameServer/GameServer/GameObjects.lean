import Mathlib.Data.List.Nodup
import DdingGameServer.Common.MapCalls
import DdingGameServer.Common.System
import DdingGameServer.Common.Tally
/-!
# GameObjectManager — objects and their ids

The constructor of a `GameObject` draws its id from the generator of the manager, which starts at 1 and
is incremented before it is read. `InsertGameObject` enters an object under its id, `EraseGameObject`
forgets an id, and `FindObject` looks one up. Any number of threads do so; each call is one step, as it
holds `objectMapLock`.

Objects are known by the order of their construction. The generator is kept unwrapped.
-/

namespace DdingGameServer

namespace GameServer

abbrev GameObjectId := UInt64

/-- `INVLAID_GAME_OBJECT_ID`. -/
def invalidGameObjectId : GameObjectId := 0

/-- **`GameObjectManager`**, and the ids of the objects that were constructed. -/
structure GameObjectManager where
  objectIdGenerator : ℕ
  objectMap : KeyMap GameObjectId ℕ
  objects : List GameObjectId

inductive GameObjectEvent
  /-- The constructor of `GameObject`. -/
  | construct
  | insertGameObject (object : ℕ)
  | eraseGameObject (gameObjectId : GameObjectId)
  deriving DecidableEq, Repr

namespace GameObjectManager

variable (m : GameObjectManager)

/-- `GenerateObjectId`. -/
def generateObjectId : GameObjectId × GameObjectManager :=
  (UInt64.ofNat (m.objectIdGenerator + 1), { m with objectIdGenerator := m.objectIdGenerator + 1 })

/-- The constructor. -/
def construct : GameObjectManager :=
  let (gameObjectId, m) := m.generateObjectId
  { m with objects := m.objects ++ [gameObjectId] }

def step : GameObjectEvent → Option GameObjectManager
  | .construct => some m.construct
  | .insertGameObject object => (m.objects[object]?).map fun gameObjectId =>
      { m with objectMap := m.objectMap.insert gameObjectId object }
  | .eraseGameObject gameObjectId =>
      some { m with objectMap := m.objectMap.erase gameObjectId }

/-- Before the first call. -/
def start : GameObjectManager where
  objectIdGenerator := 1
  objectMap := .empty
  objects := []

def findObject (gameObjectId : GameObjectId) : Option ℕ := m.objectMap.find gameObjectId

end GameObjectManager

/-- The manager as a transition system. -/
def gameObjects : System GameObjectManager GameObjectEvent where
  Init m := m = .start
  step := GameObjectManager.step

variable {m m' : GameObjectManager} {e : GameObjectEvent} {es : List GameObjectEvent}
  {object i j : ℕ} {gameObjectId : GameObjectId}

/-- The id of the object that is constructed as the `i`-th. -/
def objectId (i : ℕ) : GameObjectId := UInt64.ofNat (i + 2)

/-- The call on the map that an event is. -/
def GameObjectEvent.call : GameObjectEvent → Option (MapCall GameObjectId ℕ)
  | .construct => none
  | .insertGameObject object => some (.insert (objectId object) object)
  | .eraseGameObject gameObjectId => some (.erase gameObjectId)

/-! ## The ids -/

/-- **Ids are distinct** until the generator has come round. -/
theorem objectId_inj (hi : i < 2 ^ 64) (hj : j < 2 ^ 64) : objectId i = objectId j ↔ i = j := by
  refine ⟨fun h => ?_, fun h => h ▸ rfl⟩
  have hnat := congrArg UInt64.toNat h
  simp only [objectId, UInt64.toNat_ofNat'] at hnat
  omega

/-- **And none is the invalid one** until the generator comes to it. -/
theorem objectId_ne_invalid (hi : i < 2 ^ 64 - 2) : objectId i ≠ invalidGameObjectId := by
  intro h
  have hnat := congrArg UInt64.toNat h
  simp only [objectId, invalidGameObjectId, UInt64.toNat_ofNat'] at hnat
  rw [Nat.mod_eq_of_lt (by omega)] at hnat
  exact absurd hnat (Nat.succ_ne_zero _)

/-! ## Over a run -/

/-- **What the manager is after a list of calls.** -/
structure Played (calls : List (MapCall GameObjectId ℕ)) (m : GameObjectManager) : Prop where
  objectIdGenerator : m.objectIdGenerator = m.objects.length + 1
  ids : ∀ i gameObjectId, m.objects[i]? = some gameObjectId → gameObjectId = objectId i
  objectMap : m.objectMap = .replay calls
  inserted : ∀ k i, .insert k i ∈ calls → k = objectId i ∧ i < m.objects.length

theorem played_start : Played [] .start :=
  ⟨rfl, fun _ _ h => (by cases h), rfl, fun _ _ h => absurd h List.not_mem_nil⟩

/-- **Every step is one more call**, or an object more. -/
theorem Played.step {calls : List (MapCall GameObjectId ℕ)} (h : Played calls m)
    (hs : m.step e = some m') : Played (calls ++ e.call.toList) m' := by
  cases e with
  | construct =>
    obtain rfl := Option.some.inj hs
    simp only [GameObjectEvent.call, Option.toList_none, List.append_nil]
    refine ⟨?_, fun i gameObjectId hi => ?_, h.objectMap, fun k i hk => ?_⟩
    · simp [GameObjectManager.construct, GameObjectManager.generateObjectId, h.objectIdGenerator]
    · rcases getElem?_concat_eq_some hi with hold | ⟨rfl, rfl⟩
      · exact h.ids i gameObjectId hold
      · rw [h.objectIdGenerator]
        rfl
    · obtain ⟨hid, hlt⟩ := h.inserted k i hk
      refine ⟨hid, ?_⟩
      simp only [GameObjectManager.construct, GameObjectManager.generateObjectId,
        List.length_append, List.length_singleton]
      omega
  | insertGameObject object =>
    obtain ⟨gameObjectId, hobject, rfl⟩ := Option.map_eq_some_iff.mp hs
    obtain rfl := h.ids object gameObjectId hobject
    refine ⟨h.objectIdGenerator, h.ids, ?_, fun k i hk => ?_⟩
    · rw [GameObjectEvent.call, Option.toList_some, KeyMap.replay_append_singleton, ← h.objectMap]
      rfl
    · rcases List.mem_append.mp hk with hk | hk
      · exact h.inserted k i hk
      · obtain ⟨rfl, rfl⟩ := MapCall.insert.inj (List.mem_singleton.mp hk)
        exact ⟨rfl, (List.getElem?_eq_some_iff.mp hobject).1⟩
  | eraseGameObject gameObjectId =>
    obtain rfl := Option.some.inj hs
    refine ⟨h.objectIdGenerator, h.ids, ?_, fun k i hk => ?_⟩
    · rw [GameObjectEvent.call, Option.toList_some, KeyMap.replay_append_singleton, ← h.objectMap]
      rfl
    · rcases List.mem_append.mp hk with hk | hk
      · exact h.inserted k i hk
      · cases List.mem_singleton.mp hk

theorem played_of_run {calls : List (MapCall GameObjectId ℕ)} (h : Played calls m)
    (hr : gameObjects.run m es = some m') : Played (calls ++ es.filterMap GameObjectEvent.call) m' := by
  induction es generalizing m calls with
  | nil =>
    obtain rfl : m = m' := by simpa using hr
    simpa using h
  | cons e es ih =>
    obtain ⟨t, ht, hrest⟩ := System.run_cons_eq_some.mp hr
    have := ih (h.step ht) hrest
    cases hcall : e.call with
    | none => simpa [List.filterMap_cons, hcall] using this
    | some call => simpa [List.filterMap_cons, hcall, List.append_assoc] using this

/-- A run in which an object is inserted, and its id not erased behind it, as events. -/
theorem exists_events_iff : (∃ before after, es.filterMap GameObjectEvent.call =
      before ++ .insert (objectId i) i :: after ∧ .erase (objectId i) ∉ after) ↔
    ∃ before after, es = before ++ .insertGameObject i :: after ∧
      .eraseGameObject (objectId i) ∉ after := by
  constructor
  · rintro ⟨before, after, heq, hnot⟩
    obtain ⟨es₁, es₂, rfl, -, heq₂⟩ := List.filterMap_eq_append_iff.mp heq
    obtain ⟨skipped, e, rest, rfl, -, hcall, hrest⟩ := List.filterMap_eq_cons_iff.mp heq₂
    obtain rfl : e = .insertGameObject i := by
      cases e with
      | construct | eraseGameObject => cases hcall
      | insertGameObject object =>
        obtain ⟨-, rfl⟩ := MapCall.insert.inj (Option.some.inj hcall)
        rfl
    refine ⟨es₁ ++ skipped, rest, by simp, fun hmem => hnot ?_⟩
    rw [← hrest]
    exact List.mem_filterMap.mpr ⟨_, hmem, rfl⟩
  · rintro ⟨before, after, rfl, hnot⟩
    refine ⟨before.filterMap GameObjectEvent.call, after.filterMap GameObjectEvent.call,
      by simp [GameObjectEvent.call], fun hmem => ?_⟩
    obtain ⟨e, he, hcall⟩ := List.mem_filterMap.mp hmem
    cases e with
    | construct | insertGameObject => cases hcall
    | eraseGameObject gameObjectId =>
      obtain rfl := MapCall.erase.inj (Option.some.inj hcall)
      exact hnot he

/-- **The objects over every run**, whatever threads construct, insert and erase them, until the
generator comes round: no two have one id, and none has the invalid one before the last two. An object
is found under its id exactly where it was inserted and its id not erased since, and no id ever leads
to another object. -/
theorem findObject_of_run (hr : gameObjects.run .start es = some m)
    (hn : m.objects.length ≤ 2 ^ 64) :
    m.objects.Nodup ∧
    (m.objects.length ≤ 2 ^ 64 - 2 → invalidGameObjectId ∉ m.objects) ∧
    (∀ (i : ℕ) (gameObjectId : GameObjectId), m.objects[i]? = some gameObjectId →
      (m.findObject gameObjectId = some i ↔ ∃ before after,
        es = before ++ .insertGameObject i :: after ∧ .eraseGameObject gameObjectId ∉ after)) ∧
    ∀ (gameObjectId : GameObjectId) (i : ℕ), m.findObject gameObjectId = some i →
      m.objects[i]? = some gameObjectId := by
  have h := played_of_run played_start hr
  rw [List.nil_append] at h
  have hlt : ∀ i gameObjectId, m.objects[i]? = some gameObjectId → i < m.objects.length :=
    fun i _ hi => (List.getElem?_eq_some_iff.mp hi).1
  have hid : ∀ i, i < m.objects.length → m.objects[i]? = some (objectId i) := by
    intro i hi
    rw [← h.ids i _ (List.getElem?_eq_getElem hi), List.getElem?_eq_getElem hi]
  refine ⟨?_, fun hvalid hmem => ?_, fun i gameObjectId hi => ?_, fun gameObjectId i hfind => ?_⟩
  · rw [List.nodup_iff_getElem?_ne_getElem?]
    intro i j hij hj heq
    rw [hid i (Nat.lt_trans hij hj), hid j hj, Option.some_inj,
      objectId_inj (Nat.lt_of_lt_of_le (Nat.lt_trans hij hj) hn) (Nat.lt_of_lt_of_le hj hn)] at heq
    omega
  · obtain ⟨i, hi⟩ := List.mem_iff_getElem?.mp hmem
    exact objectId_ne_invalid (Nat.lt_of_lt_of_le (hlt i _ hi) hvalid) (h.ids i _ hi).symm
  · obtain rfl := h.ids i _ hi
    rw [GameObjectManager.findObject, h.objectMap, KeyMap.find_replay_eq_some,
      KeyMap.holds_of_insertions (fun b hb => ?_), exists_events_iff]
    obtain ⟨heq, hb'⟩ := h.inserted _ b hb
    exact ((objectId_inj (Nat.lt_of_lt_of_le (hlt i _ hi) hn)
      (Nat.lt_of_lt_of_le hb' hn)).mp heq).symm
  · rw [GameObjectManager.findObject, h.objectMap, KeyMap.find_replay_eq_some] at hfind
    obtain ⟨before, after, hcalls, -⟩ := hfind
    obtain ⟨rfl, hi⟩ := h.inserted gameObjectId i (by rw [hcalls]; simp)
    exact hid i hi

/-- Two objects, one of them inserted, erased and inserted again. -/
theorem findObject_two : ∃ m, gameObjects.run .start [.construct, .construct, .insertGameObject 0,
      .insertGameObject 1, .eraseGameObject 3, .insertGameObject 1] = some m ∧
    m.objects = [2, 3] ∧ m.findObject 3 = some 1 := by
  obtain ⟨m, hr, hobjects⟩ : ∃ m, gameObjects.run .start [.construct, .construct,
      .insertGameObject 0, .insertGameObject 1, .eraseGameObject 3, .insertGameObject 1] = some m ∧
      m.objects = [2, 3] := ⟨_, rfl, rfl⟩
  refine ⟨m, hr, hobjects, ?_⟩
  obtain ⟨-, -, hfind, -⟩ := findObject_of_run hr (by rw [hobjects]; decide)
  exact (hfind 1 3 (by rw [hobjects]; rfl)).mpr
    ⟨[.construct, .construct, .insertGameObject 0, .insertGameObject 1, .eraseGameObject 3], [], rfl,
      List.not_mem_nil⟩

end GameServer

end DdingGameServer
