import Mathlib.Data.List.Nodup
import DdingGameServer.Common.Tally
import DdingGameServer.DBServer.Model
/-!
# DBServer — packets handled by several workers

`HandlePacket` runs on any number of worker threads at a time. `batchedDBJobMapLock` is held for one
access to the map only: `AddItemForJobStart` takes the batch out of the map under the lock and works
on its `bufferList` after it. So a call is cut into the steps between which other calls may run, and
the `BatchedDBJob` objects stand in a heap that calls and the map refer to.

What keeps the calls apart is ownership: an object is referred to by one key of the map, or by the
one call that took it out, or by nothing any more.
-/

namespace DdingGameServer

namespace DBServer

open GameDB

universe u v

variable {DB : Type v} {Buf : Type u}

/-- Where a call of `HandlePacket` is: the step it takes next. An object is its index in the
heap. -/
inductive Position (Buf : Type u)
  | insertBatchJob (jobKey : DBJobKey) (job : DBJobStart)
  | procedureHandleImpl (jobKey : DBJobKey) (packetId : PacketId) (recvBuffer : Buf)
  | isBatchJobWaitingJob (jobKey : DBJobKey) (packetId : PacketId) (recvBuffer : Buf)
  /-- The part of `AddItemForJobStart` that holds the lock. -/
  | addItemForJobStart (jobKey : DBJobKey) (packetId : PacketId) (recvBuffer : Buf)
  /-- And what follows it, without the lock. -/
  | emplaceBack (jobKey : DBJobKey) (packetId : PacketId) (recvBuffer : Buf) (batchedJob : ℕ)
  | compareSize (jobKey : DBJobKey) (batchedJob : ℕ)
  /-- `DoBatchedJob` is running. -/
  | doBatchedJob (jobKey : DBJobKey) (batchedJob : ℕ)
  | returned
  deriving DecidableEq

/-- A call of `HandlePacket`. -/
structure WorkerCall (Buf : Type u) where
  packet : Packet Buf
  position : Position Buf

/-- An entry of a `bufferList`. -/
structure Entry (Buf : Type u) where
  item : Item Buf
  /-- History: the call that placed it. -/
  call : ℕ

/-- A `BatchedDBJob` in the heap. -/
structure JobObject (Buf : Type u) where
  batchSize : UInt8
  sessionId : SessionId
  bufferList : List (Entry Buf)
  createdBy : Packet Buf

/-- The batch an object is. -/
def JobObject.batchedJob (o : JobObject Buf) : BatchedDBJob Buf where
  batchSize := o.batchSize
  sessionId := o.sessionId
  bufferList := o.bufferList.map Entry.item
  createdBy := o.createdBy

/-- **The workers' shared state.** -/
structure WorkerState (Buf : Type u) where
  /-- The objects, in the order `InsertBatchJob` made them. -/
  objects : List (JobObject Buf)
  batchedDBJobMap : KeyMap DBJobKey ℕ
  calls : List (WorkerCall Buf)
  /-- History: the object of each `DoBatchedJob`, in the order of the calls. -/
  executed : List ℕ

inductive WorkerEvent (Buf : Type u)
  /-- A worker calls `HandlePacket`. -/
  | handlePacket (p : Packet Buf)
  /-- The `c`-th call takes its next step. -/
  | advance (c : ℕ)

/-- The object a call took out of the map. -/
def Position.holds : Position Buf → Option ℕ
  | .emplaceBack _ _ _ batchedJob => some batchedJob
  | .compareSize _ batchedJob => some batchedJob
  | .doBatchedJob _ batchedJob => some batchedJob
  | _ => none

/-- The object whose `bufferList` a call is appending to. -/
def Position.appendsTo : Position Buf → Option ℕ
  | .emplaceBack _ _ _ batchedJob => some batchedJob
  | _ => none

/-- Past the point where a call places its packet. -/
def Position.placed : Position Buf → Bool
  | .compareSize _ _ => true
  | .doBatchedJob _ _ => true
  | .returned => true
  | _ => false

namespace WorkerState

/-- The `c`-th call goes on to `position`. -/
def goto (s : WorkerState Buf) (c : ℕ) (call : WorkerCall Buf) (position : Position Buf) :
    WorkerState Buf :=
  { s with calls := s.calls.set c { call with position } }

/-- The next step of the `c`-th call. -/
def advance (s : WorkerState Buf) (c : ℕ) (call : WorkerCall Buf) : Option (WorkerState Buf) :=
  match call.position with
  | .insertBatchJob jobKey job =>
    let object : JobObject Buf :=
      { batchSize := job.batchSize.toUInt8, sessionId := job.sessionId, bufferList := []
        createdBy := call.packet }
    some { s.goto c call .returned with
      objects := s.objects ++ [object]
      batchedDBJobMap := s.batchedDBJobMap.insert jobKey s.objects.length }
  | .procedureHandleImpl jobKey packetId recvBuffer =>
    some (s.goto c call (.isBatchJobWaitingJob jobKey packetId recvBuffer))
  | .isBatchJobWaitingJob jobKey packetId recvBuffer =>
    if (s.batchedDBJobMap.find jobKey).isSome then
      some (s.goto c call (.addItemForJobStart jobKey packetId recvBuffer))
    else
      -- `Receive invalid job` is printed.
      some (s.goto c call .returned)
  | .addItemForJobStart jobKey packetId recvBuffer =>
    match s.batchedDBJobMap.find jobKey with
    | none => some (s.goto c call .returned)
    | some batchedJob =>
      some { s.goto c call (.emplaceBack jobKey packetId recvBuffer batchedJob) with
        batchedDBJobMap := s.batchedDBJobMap.erase jobKey }
  | .emplaceBack jobKey packetId recvBuffer batchedJob =>
    let entry : Entry Buf := ⟨⟨packetId, recvBuffer, call.packet⟩, c⟩
    some { s.goto c call (.compareSize jobKey batchedJob) with
      objects := s.objects.modify batchedJob fun o =>
        { o with bufferList := o.bufferList ++ [entry] } }
  | .compareSize jobKey batchedJob =>
    s.objects[batchedJob]?.bind fun o =>
      if o.batchSize.toNat = o.bufferList.length then
        some { s.goto c call (.doBatchedJob jobKey batchedJob) with
          executed := s.executed ++ [batchedJob] }
      else some (s.goto c call .returned)
  | .doBatchedJob _ _ => some (s.goto c call .returned)
  | .returned => none

end WorkerState

/-! ## What one step does -/

variable {s s' : WorkerState Buf} {c : ℕ} {call : WorkerCall Buf} {position : Position Buf}
  {key : DBJobKey} {j : ℕ} {o : JobObject Buf} {e : Entry Buf}

/-- **What a step of a call does to the objects**: nothing, make one, take one out of the map,
place its packet in the one it holds, or begin to execute it. -/
inductive Handled (s : WorkerState Buf) (c : ℕ) (call : WorkerCall Buf) : WorkerState Buf → Prop
  | passed (position : Position Buf) : position.holds = none →
      (call.position.placed = true → position.placed = true) →
      Handled s c call (s.goto c call position)
  | made (key : DBJobKey) (o : JobObject Buf) : o.bufferList = [] →
      Handled s c call
        { s.goto c call .returned with
          objects := s.objects ++ [o]
          batchedDBJobMap := s.batchedDBJobMap.insert key s.objects.length }
  | took (key : DBJobKey) (position : Position Buf) (j : ℕ) : call.position.placed = false →
      s.batchedDBJobMap.find key = some j → position.holds = some j →
      position.placed = false →
      Handled s c call
        { s.goto c call position with batchedDBJobMap := s.batchedDBJobMap.erase key }
  | placed (position : Position Buf) (j : ℕ) (e : Entry Buf) : call.position.holds = some j →
      call.position.placed = false → position.holds = some j → position.placed = true →
      e.call = c →
      Handled s c call
        { s.goto c call position with
          objects := s.objects.modify j fun o => { o with bufferList := o.bufferList ++ [e] } }
  | began (key : DBJobKey) (j : ℕ) : call.position = .compareSize key j →
      Handled s c call
        { s.goto c call (.doBatchedJob key j) with executed := s.executed ++ [j] }

theorem handled (h : s.advance c call = some s') : Handled s c call s' := by
  obtain ⟨packet, position⟩ := call
  cases position with
  | insertBatchJob jobKey job =>
    obtain rfl := Option.some.inj h
    exact .made jobKey _ rfl
  | procedureHandleImpl jobKey packetId recvBuffer =>
    obtain rfl := Option.some.inj h
    exact .passed _ rfl fun hp => hp
  | isBatchJobWaitingJob jobKey packetId recvBuffer =>
    simp only [WorkerState.advance] at h
    split at h
    · obtain rfl := Option.some.inj h
      exact .passed _ rfl fun hp => hp
    · obtain rfl := Option.some.inj h
      exact .passed _ rfl fun _ => rfl
  | addItemForJobStart jobKey packetId recvBuffer =>
    simp only [WorkerState.advance] at h
    cases hfind : s.batchedDBJobMap.find jobKey with
    | none =>
      rw [hfind] at h
      obtain rfl := Option.some.inj h
      exact .passed _ rfl fun _ => rfl
    | some batchedJob =>
      rw [hfind] at h
      obtain rfl := Option.some.inj h
      exact .took jobKey _ batchedJob rfl hfind rfl rfl
  | emplaceBack jobKey packetId recvBuffer batchedJob =>
    obtain rfl := Option.some.inj h
    exact .placed _ batchedJob _ rfl rfl rfl rfl rfl
  | compareSize jobKey batchedJob =>
    obtain ⟨o, -, hrest⟩ := Option.bind_eq_some_iff.mp h
    split at hrest
    · obtain rfl := Option.some.inj hrest
      exact .began jobKey batchedJob rfl
    · obtain rfl := Option.some.inj hrest
      exact .passed _ rfl fun _ => rfl
  | doBatchedJob jobKey batchedJob =>
    obtain rfl := Option.some.inj h
    exact .passed _ rfl fun _ => rfl
  | returned => exact nomatch h

/-! ## Who refers to an object -/

/-- What can refer to an object: a key of the map, or a call. -/
inductive Owner
  | key (key : DBJobKey)
  | call (c : ℕ)

/-- `w` refers to the object `j`. -/
def WorkerState.Owns (s : WorkerState Buf) (j : ℕ) : Owner → Prop
  | .key key => s.batchedDBJobMap.find key = some j
  | .call c => ∃ call, s.calls[c]? = some call ∧ call.position.holds = some j

/-- **Every object has one owner at most.** -/
structure Owned (s : WorkerState Buf) : Prop where
  lt_length : ∀ {w j}, s.Owns j w → j < s.objects.length
  unique : ∀ {w w' j}, s.Owns j w → s.Owns j w' → w = w'

/-- A call that goes on holding what it held, or nothing, owns nothing new. -/
theorem owns_of_owns_goto {w : Owner} (hc : s.calls[c]? = some call)
    (hholds : position.holds = none ∨ position.holds = call.position.holds)
    (h : (s.goto c call position).Owns j w) : s.Owns j w := by
  cases w with
  | key key => exact h
  | call a =>
    obtain ⟨b, hb, hj⟩ := h
    rcases getElem?_set_eq_some hb with ⟨rfl, rfl⟩ | ⟨-, hb⟩
    · rcases hholds with hnone | hsame
      · rw [hnone] at hj
        exact nomatch hj
      · exact ⟨call, hc, hsame ▸ hj⟩
    · exact ⟨b, hb, hj⟩

/-- **How a step moves ownership**: nobody owns anything new; or a key owns the object just made; or
the call owns what a key owned before. -/
theorem Handled.owns (h : Handled s c call s') (hc : s.calls[c]? = some call) :
    (∀ w j, s'.Owns j w → s.Owns j w) ∨
      (s'.objects.length = s.objects.length + 1 ∧
        ∃ key, ∀ w j, s'.Owns j w → s.Owns j w ∨ (w = .key key ∧ j = s.objects.length)) ∨
      (∃ key i, s.Owns i (.key key) ∧
        ∀ w j, s'.Owns j w → (w = .call c ∧ j = i) ∨ (w ≠ .key key ∧ s.Owns j w)) := by
  cases h with
  | passed position hnone hplaced =>
    exact .inl fun w j hw => owns_of_owns_goto hc (.inl hnone) hw
  | made key o hempty =>
    have hreturned : (.returned : Position Buf).holds = none := rfl
    refine .inr (.inl ⟨by simp, key, fun w j hw => ?_⟩)
    cases w with
    | key k =>
      rcases KeyMap.find_insert_eq_some.mp hw with hw | ⟨rfl, -, rfl⟩
      · exact .inl hw
      · exact .inr ⟨rfl, rfl⟩
    | call a => exact .inl (owns_of_owns_goto hc (.inl hreturned) hw)
  | took key position i hbefore hfind hholds hafter =>
    refine .inr (.inr ⟨key, i, hfind, fun w j hw => ?_⟩)
    cases w with
    | key k =>
      refine .inr ⟨fun heq => ?_, KeyMap.find_of_find_erase hw⟩
      obtain rfl := Owner.key.inj heq
      have hnone : (s.batchedDBJobMap.erase k).find k = some j := hw
      rw [KeyMap.find_erase_self] at hnone
      exact nomatch hnone
    | call a =>
      obtain ⟨b, hb, hj⟩ := hw
      rcases getElem?_set_eq_some hb with ⟨rfl, rfl⟩ | ⟨-, hb⟩
      · exact .inl ⟨rfl, Option.some.inj (hj.symm.trans hholds)⟩
      · exact .inr ⟨nofun, b, hb, hj⟩
  | placed position i e hholds hbefore hholds' hafter hcall =>
    refine .inl fun w j hw => ?_
    have hw' : (s.goto c call position).Owns j w := by cases w <;> exact hw
    exact owns_of_owns_goto hc (.inr (hholds'.trans hholds.symm)) hw'
  | began key i hposition =>
    refine .inl fun w j hw => ?_
    have hw' : (s.goto c call (.doBatchedJob key i)).Owns j w := by cases w <;> exact hw
    refine owns_of_owns_goto hc (.inr ?_) hw'
    rw [hposition]
    rfl

/-- Objects stay in the heap. -/
theorem Handled.length_le (h : Handled s c call s') : s.objects.length ≤ s'.objects.length := by
  cases h <;> simp [WorkerState.goto]

/-- A step keeps the owners apart. -/
theorem Owned.handled (hs : Owned s) (hc : s.calls[c]? = some call) (h : Handled s c call s') :
    Owned s' := by
  have hle := h.length_le
  rcases h.owns hc with hold | ⟨hlen, key, hold⟩ | ⟨key, i, hkey, hold⟩
  · refine ⟨fun {w j} hw => ?_, fun {w w' j} hw hw' => hs.unique (hold w j hw) (hold w' j hw')⟩
    have := hs.lt_length (hold w j hw)
    omega
  · refine ⟨fun {w j} hw => ?_, fun {w w' j} hw hw' => ?_⟩
    · rcases hold w j hw with hw | ⟨-, rfl⟩
      · have := hs.lt_length hw
        omega
      · omega
    · -- The new object has no owner among the old ones.
      rcases hold w j hw with hw | ⟨rfl, rfl⟩
      · rcases hold w' j hw' with hw' | ⟨-, rfl⟩
        · exact hs.unique hw hw'
        · exact absurd (hs.lt_length hw) (by omega)
      · rcases hold w' _ hw' with hw' | ⟨rfl, -⟩
        · exact absurd (hs.lt_length hw') (by omega)
        · rfl
  · have howner : ∀ {w j}, s'.Owns j w → j = i → w = .call c := by
      intro w j hw hji
      rcases hold w j hw with ⟨rfl, -⟩ | ⟨hne, hw⟩
      · rfl
      · exact absurd (hs.unique hw (hji ▸ hkey)) hne
    refine ⟨fun {w j} hw => ?_, fun {w w' j} hw hw' => ?_⟩
    · rcases hold w j hw with ⟨-, rfl⟩ | ⟨-, hw⟩
      · have := hs.lt_length hkey
        omega
      · have := hs.lt_length hw
        omega
    · by_cases hji : j = i
      · rw [howner hw hji, howner hw' hji]
      · rcases hold w j hw with ⟨-, rfl⟩ | ⟨-, hw⟩
        · exact absurd rfl hji
        · rcases hold w' j hw' with ⟨-, rfl⟩ | ⟨-, hw'⟩
          · exact absurd rfl hji
          · exact hs.unique hw hw'

/-! ## Executed once -/

/-- **An executed object is not executed again**: only the call that is executing it may still
refer to it. -/
structure Spent (s : WorkerState Buf) : Prop where
  lt_length : ∀ j ∈ s.executed, j < s.objects.length
  nodup : s.executed.Nodup
  running : ∀ j ∈ s.executed, ∀ w, s.Owns j w → ∃ c call key, w = .call c ∧
    s.calls[c]? = some call ∧ call.position = .doBatchedJob key j

/-- A call that executes an object goes on doing so while another call takes a step, and after a
step of its own it does not own the object. -/
theorem Spent.running_goto (hs : Spent s) (hc : s.calls[c]? = some call) (hj : j ∈ s.executed)
    (hstops : ∀ key, call.position = .doBatchedJob key j → position.holds = none) {w : Owner}
    (hold : s.Owns j w) (hnew : (s.goto c call position).Owns j w) :
    ∃ a b key, w = .call a ∧ (s.goto c call position).calls[a]? = some b ∧
      b.position = .doBatchedJob key j := by
  obtain ⟨a, b, key, rfl, hb, hrun⟩ := hs.running j hj w hold
  by_cases hac : a = c
  · subst hac
    obtain rfl := Option.some.inj (hb.symm.trans hc)
    obtain ⟨b', hb', hholds⟩ := hnew
    rcases getElem?_set_eq_some hb' with ⟨-, rfl⟩ | ⟨hne, -⟩
    · rw [hstops key hrun] at hholds
      exact nomatch hholds
    · exact absurd rfl hne
  · refine ⟨a, b, key, rfl, ?_, hrun⟩
    exact (List.getElem?_set_ne (Ne.symm hac)).trans hb

/-- A step keeps executed objects executed once. -/
theorem Spent.handled (hs : Spent s) (hown : Owned s) (hc : s.calls[c]? = some call)
    (h : Handled s c call s') : Spent s' := by
  have hle := h.length_le
  have howns := h.owns hc
  cases h with
  | passed position hnone hplaced =>
    refine ⟨hs.lt_length, hs.nodup, fun j hj w hw => ?_⟩
    exact hs.running_goto hc hj (fun _ _ => hnone) (owns_of_owns_goto hc (.inl hnone) hw) hw
  | made key o hempty =>
    refine ⟨fun j hj => ?_, hs.nodup, fun j hj w hw => ?_⟩
    · have := hs.lt_length j hj
      omega
    · have hlt := hs.lt_length j hj
      have hw' : (s.goto c call .returned).Owns j w := by
        cases w with
        | key k =>
          rcases KeyMap.find_insert_eq_some.mp hw with hw | ⟨-, -, hnew⟩
          · exact hw
          · omega
        | call a => exact hw
      exact hs.running_goto hc hj (fun _ _ => rfl) (owns_of_owns_goto hc (.inl rfl) hw') hw'
  | took key position i hbefore hfind hholds hafter =>
    refine ⟨hs.lt_length, hs.nodup, fun j hj w hw => ?_⟩
    have hji : j ≠ i := by
      -- What a key refers to was never executed.
      rintro rfl
      obtain ⟨_, _, _, heq, _⟩ := hs.running j hj (.key key) hfind
      exact nomatch heq
    have hnew : (s.goto c call position).Owns j w := by
      cases w with
      | key k => exact KeyMap.find_of_find_erase hw
      | call a => exact hw
    have hold : s.Owns j w := by
      cases w with
      | key k => exact hnew
      | call a =>
        obtain ⟨b, hb, hj'⟩ := hnew
        rcases getElem?_set_eq_some hb with ⟨rfl, rfl⟩ | ⟨-, hb⟩
        · exact absurd (Option.some.inj (hj'.symm.trans hholds)) hji
        · exact ⟨b, hb, hj'⟩
    refine hs.running_goto hc hj (fun k hrun => ?_) hold hnew
    rw [hrun] at hbefore
    exact nomatch hbefore
  | placed position i e hholds hbefore hholds' hafter hcall =>
    refine ⟨fun j hj => by simpa using hs.lt_length j hj, hs.nodup, fun j hj w hw => ?_⟩
    have hw' : (s.goto c call position).Owns j w := by cases w <;> exact hw
    have hold := owns_of_owns_goto hc (.inr (hholds'.trans hholds.symm)) hw'
    refine hs.running_goto hc hj (fun k hrun => ?_) hold hw'
    rw [hrun] at hbefore
    exact nomatch hbefore
  | began key i hposition =>
    have howner : s.Owns i (.call c) := ⟨call, hc, by rw [hposition]; rfl⟩
    have hnew : i ∉ s.executed := by
      intro hi
      obtain ⟨a, b, k, heq, hb, hrun⟩ := hs.running i hi _ howner
      obtain rfl := Owner.call.inj heq
      obtain rfl := Option.some.inj (hb.symm.trans hc)
      rw [hposition] at hrun
      exact nomatch hrun
    refine ⟨fun j hj => ?_, ?_, fun j hj w hw => ?_⟩
    · rcases List.mem_append.mp hj with hj | hj
      · exact hs.lt_length j hj
      · obtain rfl := List.mem_singleton.mp hj
        exact hown.lt_length howner
    · rw [List.nodup_append]
      refine ⟨hs.nodup, List.nodup_singleton i, fun a ha b hb hab => ?_⟩
      obtain rfl := List.mem_singleton.mp hb
      exact hnew (hab ▸ ha)
    · have hw' : (s.goto c call (.doBatchedJob key i)).Owns j w := by cases w <;> exact hw
      have hold : s.Owns j w := owns_of_owns_goto hc (.inr (by rw [hposition]; rfl)) hw'
      rcases List.mem_append.mp hj with hj | hj
      · refine hs.running_goto hc hj (fun k hrun => ?_) hold hw'
        rw [hposition] at hrun
        exact nomatch hrun
      · obtain rfl := List.mem_singleton.mp hj
        obtain rfl := hown.unique hold howner
        refine ⟨c, _, key, rfl, List.getElem?_set_self ?_, rfl⟩
        exact (List.getElem?_eq_some_iff.mp hc).1

/-! ## Placed once -/

/-- The packet of a call is in one `bufferList` at most, and only once the call has placed it. -/
structure PlacedOnce (s : WorkerState Buf) : Prop where
  placed : ∀ (j : ℕ) (o : JobObject Buf) (e : Entry Buf), s.objects[j]? = some o →
    e ∈ o.bufferList → ∃ call, s.calls[e.call]? = some call ∧ call.position.placed = true
  unique : ∀ (j j' : ℕ) (o o' : JobObject Buf) (e e' : Entry Buf), s.objects[j]? = some o →
    s.objects[j']? = some o' → e ∈ o.bufferList → e' ∈ o'.bufferList → e.call = e'.call → j = j'

/-- Placed packets stay placed while a call that has placed none, or stays past it, takes a step. -/
theorem PlacedOnce.placed_goto (hs : PlacedOnce s) (hc : s.calls[c]? = some call)
    (hp : call.position.placed = true → position.placed = true)
    (ho : s.objects[j]? = some o) (he : e ∈ o.bufferList) :
    ∃ call', (s.goto c call position).calls[e.call]? = some call' ∧
      call'.position.placed = true := by
  obtain ⟨b, hb, hplaced⟩ := hs.placed j o e ho he
  by_cases hec : e.call = c
  · rw [hec] at hb ⊢
    obtain rfl := Option.some.inj (hb.symm.trans hc)
    exact ⟨_, List.getElem?_set_self (List.getElem?_eq_some_iff.mp hc).1, hp hplaced⟩
  · exact ⟨b, (List.getElem?_set_ne (Ne.symm hec)).trans hb, hplaced⟩

/-- The entries after a packet was placed: the old ones, and the new one in its object. -/
theorem mem_bufferList_modify {i : ℕ} {e₀ : Entry Buf}
    (ho : (s.objects.modify i fun o => { o with bufferList := o.bufferList ++ [e₀] })[j]? = some o)
    (he : e ∈ o.bufferList) :
    (∃ o', s.objects[j]? = some o' ∧ e ∈ o'.bufferList) ∨ (j = i ∧ e = e₀) := by
  rw [List.getElem?_modify] at ho
  obtain ⟨o', ho', heq⟩ := Option.map_eq_some_iff.mp ho
  by_cases hij : i = j
  · rw [if_pos hij] at heq
    subst heq
    rcases List.mem_append.mp he with he | he
    · exact .inl ⟨o', ho', he⟩
    · exact .inr ⟨hij.symm, List.mem_singleton.mp he⟩
  · rw [if_neg hij] at heq
    subst heq
    exact .inl ⟨o', ho', he⟩

/-- A step keeps packets placed once. -/
theorem PlacedOnce.handled (hs : PlacedOnce s) (hc : s.calls[c]? = some call)
    (h : Handled s c call s') : PlacedOnce s' := by
  cases h with
  | passed position hnone hplaced =>
    exact ⟨fun j o e ho he => hs.placed_goto hc hplaced ho he, hs.unique⟩
  | made key o₀ hempty =>
    have hold : ∀ (j : ℕ) (o : JobObject Buf) (e : Entry Buf),
        (s.objects ++ [o₀])[j]? = some o → e ∈ o.bufferList → s.objects[j]? = some o := by
      intro j o e ho he
      rcases getElem?_concat_eq_some ho with ho | ⟨-, rfl⟩
      · exact ho
      · rw [hempty] at he
        exact absurd he List.not_mem_nil
    refine ⟨fun j o e ho he => ?_, fun j j' o o' e e' ho ho' he he' => ?_⟩
    · exact hs.placed_goto hc (fun _ => rfl) (hold j o e ho he) he
    · exact hs.unique j j' o o' e e' (hold j o e ho he) (hold j' o' e' ho' he') he he'
  | took key position i hbefore hfind hholds hafter =>
    refine ⟨fun j o e ho he => hs.placed_goto hc (fun hp => ?_) ho he, hs.unique⟩
    rw [hbefore] at hp
    exact nomatch hp
  | placed position i e₀ hholds hbefore hholds' hafter hcall =>
    have hnotyet : ∀ (j : ℕ) (o : JobObject Buf) (e : Entry Buf), s.objects[j]? = some o →
        e ∈ o.bufferList → e.call ≠ c := by
      rintro j o e ho he rfl
      obtain ⟨b, hb, hplaced⟩ := hs.placed j o e ho he
      obtain rfl := Option.some.inj (hb.symm.trans hc)
      rw [hbefore] at hplaced
      exact nomatch hplaced
    refine ⟨fun j o e ho he => ?_, fun j j' o o' e e' ho ho' he he' heq => ?_⟩
    · rcases mem_bufferList_modify ho he with ⟨o', ho', he⟩ | ⟨-, rfl⟩
      · exact hs.placed_goto hc (fun _ => hafter) ho' he
      · refine ⟨{ call with position }, ?_, hafter⟩
        rw [hcall]
        exact List.getElem?_set_self (List.getElem?_eq_some_iff.mp hc).1
    · rcases mem_bufferList_modify ho he with ⟨o₁, ho₁, he⟩ | ⟨rfl, rfl⟩
      · rcases mem_bufferList_modify ho' he' with ⟨o₂, ho₂, he'⟩ | ⟨rfl, rfl⟩
        · exact hs.unique j j' o₁ o₂ e e' ho₁ ho₂ he he' heq
        · exact absurd (heq.trans hcall) (hnotyet j o₁ e ho₁ he)
      · rcases mem_bufferList_modify ho' he' with ⟨o₂, ho₂, he'⟩ | ⟨rfl, rfl⟩
        · exact absurd (heq.symm.trans hcall) (hnotyet j' o₂ e' ho₂ he')
        · rfl
  | began key i hposition =>
    refine ⟨fun j o e ho he => hs.placed_goto hc (fun _ => rfl) ho he, hs.unique⟩

/-! ## The workers as a system -/

variable [SerializationBuf Buf]

/-- The first step of a call, after it has read its packet. -/
def Packet.begins (p : Packet Buf) : Position Buf :=
  match readRequest p.packetId p.recvBuffer with
  | .batchStart key job => .insertBatchJob key job
  | .job key packetId recvBuffer =>
    if key = 0 then .procedureHandleImpl key packetId recvBuffer
    else .isBatchJobWaitingJob key packetId recvBuffer

def WorkerState.step (s : WorkerState Buf) : WorkerEvent Buf → Option (WorkerState Buf)
  | .handlePacket p => some { s with calls := s.calls ++ [⟨p, p.begins⟩] }
  | .advance c => s.calls[c]?.bind fun call => s.advance c call

/-- **DBServer with any number of workers**; it starts with no batch and no call. -/
def workerSystem (Buf : Type u) [SerializationBuf Buf] :
    System (WorkerState Buf) (WorkerEvent Buf) where
  Init s := s = ⟨[], .empty, [], []⟩
  step s := s.step

/-- A call that begins owns nothing and has placed nothing. -/
theorem holds_begins (p : Packet Buf) : p.begins.holds = none := by
  simp only [Packet.begins]
  split
  · rfl
  · split <;> rfl

/-- The three invariants together. -/
structure Ordered (s : WorkerState Buf) : Prop where
  owned : Owned s
  spent : Spent s
  placedOnce : PlacedOnce s

/-- A new call changes nothing for the objects. -/
theorem Ordered.handlePacket (hs : Ordered s) (p : Packet Buf) :
    Ordered { s with calls := s.calls ++ [⟨p, p.begins⟩] } := by
  have hold : ∀ {a : ℕ} {call : WorkerCall Buf}, s.calls[a]? = some call →
      (s.calls ++ [⟨p, p.begins⟩])[a]? = some call := by
    intro a call ha
    rwa [List.getElem?_append_left (List.getElem?_eq_some_iff.mp ha).1]
  have howns : ∀ {j w}, WorkerState.Owns { s with calls := s.calls ++ [⟨p, p.begins⟩] } j w →
      s.Owns j w := by
    intro j w hw
    cases w with
    | key key => exact hw
    | call a =>
      obtain ⟨call, ha, hj⟩ := hw
      rcases getElem?_concat_eq_some ha with ha | ⟨-, rfl⟩
      · exact ⟨call, ha, hj⟩
      · rw [holds_begins] at hj
        exact nomatch hj
  refine ⟨⟨fun hw => hs.owned.lt_length (howns hw),
    fun hw hw' => hs.owned.unique (howns hw) (howns hw')⟩,
    ⟨hs.spent.lt_length, hs.spent.nodup, fun j hj w hw => ?_⟩,
    ⟨fun j o e ho he => ?_, hs.placedOnce.unique⟩⟩
  · obtain ⟨a, call, key, rfl, ha, hrun⟩ := hs.spent.running j hj w (howns hw)
    exact ⟨a, call, key, rfl, hold ha, hrun⟩
  · obtain ⟨call, ha, hplaced⟩ := hs.placedOnce.placed j o e ho he
    exact ⟨call, hold ha, hplaced⟩

theorem ordered_of_reachable (h : (workerSystem Buf).Reachable s) : Ordered s := by
  refine h.invariant (P := Ordered) ?_ ?_
  · rintro _ rfl
    have hnone : ∀ {j w}, ¬ WorkerState.Owns (⟨[], .empty, [], []⟩ : WorkerState Buf) j w := by
      rintro j (key | a) hw
      · exact nomatch hw
      · obtain ⟨call, ha, -⟩ := hw
        simp at ha
    exact ⟨⟨fun hw => absurd hw hnone, fun hw => absurd hw hnone⟩,
      ⟨by simp, List.nodup_nil, by simp⟩, ⟨by simp, by simp⟩⟩
  · intro s event s' hs _ hstep
    cases event with
    | handlePacket p =>
      obtain rfl := Option.some.inj hstep
      exact hs.handlePacket p
    | advance c =>
      obtain ⟨call, hc, hadv⟩ := Option.bind_eq_some_iff.mp hstep
      have h := handled hadv
      exact ⟨hs.owned.handled hc h, hs.spent.handled hs.owned hc h, hs.placedOnce.handled hc h⟩

/-- **No batch twice.** -/
structure NoBatchTwice (s : WorkerState Buf) : Prop where
  /-- `DoBatchedJob` runs once at most for an object `InsertBatchJob` made. -/
  executed : s.executed.Nodup ∧ ∀ j ∈ s.executed, j < s.objects.length
  /-- No two calls append to one `bufferList` at a time. -/
  appends : ∀ (a b : ℕ) (call call' : WorkerCall Buf) (j : ℕ), s.calls[a]? = some call →
    s.calls[b]? = some call' → call.position.appendsTo = some j →
    call'.position.appendsTo = some j → a = b
  /-- The packet of one call is in the `bufferList` of one object at most. -/
  placed : ∀ (j j' : ℕ) (o o' : JobObject Buf) (e e' : Entry Buf), s.objects[j]? = some o →
    s.objects[j']? = some o' → e ∈ o.bufferList → e' ∈ o'.bufferList → e.call = e'.call → j = j'

/-- **No batch is executed twice**, however the workers' calls interleave and whatever packets they
handle. -/
theorem noBatchTwice_of_reachable (h : (workerSystem Buf).Reachable s) : NoBatchTwice s := by
  have hs := ordered_of_reachable h
  have hholds : ∀ {position : Position Buf} {j : ℕ}, position.appendsTo = some j →
      position.holds = some j := by
    intro position j hp
    cases position <;> first | exact hp | exact nomatch hp
  refine ⟨⟨hs.spent.nodup, hs.spent.lt_length⟩, fun a b call call' j ha hb hj hj' => ?_,
    hs.placedOnce.unique⟩
  have heq : Owner.call a = .call b :=
    hs.owned.unique ⟨call, ha, hholds hj⟩ ⟨call', hb, hholds hj'⟩
  exact Owner.call.inj heq

/-- Two workers look up the same batch before one of them takes it; a third puts a batch under the
key again in between. -/
theorem noBatchTwice_twoWorkers : ∃ s : WorkerState (List UInt8),
    NoBatchTwice s ∧ s.executed = [0] ∧ s.objects.length = 2 ∧
      s.calls.map WorkerCall.position =
        [.returned, .doBatchedJob 5 0, .emplaceBack 5 8 [] 1, .returned] := by
  obtain ⟨s, hs, hf⟩ := (workerSystem (List UInt8)).exists_reachable
    [.handlePacket (startPacket 1 5 9 1), .advance 0,
      .handlePacket (jobPacket 1 5 7 []), .handlePacket (jobPacket 1 5 8 []),
      .advance 1, .advance 2, .advance 1,
      .handlePacket (startPacket 1 5 9 1), .advance 3,
      .advance 2, .advance 1, .advance 1]
    (s := (⟨[], .empty, [], []⟩ : WorkerState (List UInt8)))
    (f := fun s => s.executed = [0] ∧ s.objects.length = 2 ∧
      s.calls.map WorkerCall.position =
        [.returned, .doBatchedJob 5 0, .emplaceBack 5 8 [] 1, .returned])
    rfl (by decide +kernel)
  exact ⟨s, noBatchTwice_of_reachable hs, by simpa using hf⟩

end DBServer

end DdingGameServer
