import DdingGameServer.MultiLanClient.Model
/-!
# MultiLanClient — the option file, and the channels it allows

`LanClientOptionParsing` reads three numbers, one byte each, and accepts all of them. `Start` makes
`SESSION_COUNT` sessions; `SendPacket` chooses among them modulo `WORKER_THREAD`, or modulo
`USE_IOCPWORKER` where it is given a fixed id. Nothing compares the three. A choice is safe for every
counter value and every id exactly if neither modulus is 0 or larger than the number of sessions;
the option file of the repository has four of each thread and two sessions.

`CParser` is not part of the repository: a parser is what it finds under a name of a section.
-/

namespace DdingGameServer

namespace MultiLanClient

/-- A `CParser` over the text of an option file. -/
structure Parser where
  getValueString : String → String → Option String
  getValueShort : String → String → Option UInt16
  getValueByte : String → String → Option UInt8

/-- The members `LanClientOptionParsing` sets. -/
structure Options where
  ip : String
  port : UInt16
  numOfWorkerThread : UInt8 := 1
  numOfUsingWorkerThread : UInt8 := 1
  isNagleOn : UInt8
  isReconnect : UInt8
  numOfSession : UInt8 := 1
  deriving DecidableEq, Repr

/-- `LanClientOptionParsing`, of a file that can be opened or not. -/
def lanClientOptionParsing (file : Option Parser) : Option Options := do
  let parser ← file
  let ip ← parser.getValueString "LANCLIENT" "SERVER_IP"
  let port ← parser.getValueShort "LANCLIENT" "SERVER_PORT"
  let numOfWorkerThread ← parser.getValueByte "LANCLIENT" "WORKER_THREAD"
  let numOfUsingWorkerThread ← parser.getValueByte "LANCLIENT" "USE_IOCPWORKER"
  let isNagleOn ← parser.getValueByte "LANCLIENT" "NAGLE_ON"
  let isReconnect ← parser.getValueByte "LANCLIENT" "RECONNECT"
  let numOfSession ← parser.getValueByte "LANCLIENT" "SESSION_COUNT"
  return { ip, port, numOfWorkerThread, numOfUsingWorkerThread, isNagleOn, isReconnect,
           numOfSession }

/-- The client `Start` makes of the options. -/
def Options.config (options : Options) (ringCapacity : ℕ) : Config where
  numOfWorkerThread := options.numOfWorkerThread.toNat
  numOfUsingWorkerThread := options.numOfUsingWorkerThread.toNat
  numOfSession := options.numOfSession.toNat
  isReconnect := options.isReconnect ≠ 0
  ringCapacity := ringCapacity

/-- `sessionList`, as the first loop of `Start` fills it. -/
def startSessionList (cfg : Config) : List Session := List.replicate cfg.numOfSession Session.new

/-- What a call of `SendPacket` comes to. -/
inductive Delivery
  | divisionByZero
  | nullBuffer
  /-- `sessionList[channelId]` exists. -/
  | enqueued (channelId : ℕ)
  | outOfRange (channelId : ℕ)
  deriving DecidableEq, Repr

/-- `SendPacketImpl`, up to the queue of the session. -/
def sendPacketImpl (sessionList : List Session) (serializeBuf : Option Buffer) (channelId : ℕ) :
    Delivery :=
  match serializeBuf with
  | none => .nullBuffer
  | some _ => if channelId < sessionList.length then .enqueued channelId else .outOfRange channelId

/-- The two `SendPacket`s: the channel is chosen before the buffer is looked at. -/
def delivery (cfg : Config) (channelSelector : UInt64) (serializeBuf : Option Buffer)
    (fixedId : Option UInt64) : Delivery :=
  match (getChannelId cfg channelSelector fixedId).1 with
  | none => .divisionByZero
  | some channelId => sendPacketImpl (startSessionList cfg) serializeBuf channelId

/-- **Every call finds a channel**, whatever the counter and the id. -/
def SelectsInRange (cfg : Config) : Prop :=
  ∀ (channelSelector : UInt64) (serializeBuf : Option Buffer) (fixedId : Option UInt64),
    delivery cfg channelSelector serializeBuf fixedId ≠ .divisionByZero ∧
      ∀ channelId, delivery cfg channelSelector serializeBuf fixedId ≠ .outOfRange channelId

/-! ## One choice -/

variable {cfg : Config} {s s' : State} {i : ℕ} {fixedId : Option UInt64}
  {serializeBuf : Option Buffer} {channelSelector : UInt64} {m k : ℕ} {options : Options}

/-- The number a call is reduced by. -/
def modulus (cfg : Config) : Option UInt64 → ℕ
  | none => cfg.numOfWorkerThread
  | some _ => cfg.numOfUsingWorkerThread

/-- The number it reduces. -/
def selected (channelSelector : UInt64) (fixedId : Option UInt64) : UInt64 :=
  fixedId.getD (channelSelector + 1)

theorem getChannelId_fst : (getChannelId cfg channelSelector fixedId).1 =
    if modulus cfg fixedId = 0 then none
    else some ((selected channelSelector fixedId).toNat % modulus cfg fixedId) := by
  cases fixedId with
  | none => rfl
  | some id => rfl

/-- **What a call with a buffer comes to.** -/
theorem delivery_some (buffer : Buffer) :
    delivery cfg channelSelector (some buffer) fixedId =
      let channelId := (selected channelSelector fixedId).toNat % modulus cfg fixedId
      if modulus cfg fixedId = 0 then .divisionByZero
      else if channelId < cfg.numOfSession then .enqueued channelId
      else .outOfRange channelId := by
  rw [delivery, getChannelId_fst]
  by_cases hzero : modulus cfg fixedId = 0
  · rw [if_pos hzero]
    exact (if_pos hzero).symm
  · rw [if_neg hzero]
    simp only [sendPacketImpl, startSessionList, List.length_replicate, if_neg hzero]

/-- A call with a buffer is safe exactly if it reaches a queue. -/
theorem exists_enqueued_iff (buffer : Buffer) :
    (∃ channelId, delivery cfg channelSelector (some buffer) fixedId = .enqueued channelId) ↔
      modulus cfg fixedId ≠ 0 ∧
        (selected channelSelector fixedId).toNat % modulus cfg fixedId < cfg.numOfSession := by
  rw [delivery_some]
  dsimp only
  split
  · simp_all
  · split <;> simp_all

/-- Every residue is hit by a 64-bit number, so all of them are channels only if there are enough. -/
theorem forall_selected_iff (hm : 0 < m) (hle : m ≤ 2 ^ 64) :
    (∀ x : UInt64, x.toNat % m < k) ↔ m ≤ k := by
  constructor
  · intro h
    have hlast := h (UInt64.ofNat (m - 1))
    rw [UInt64.toNat_ofNat', Nat.mod_eq_of_lt (by omega), Nat.mod_eq_of_lt (by omega)] at hlast
    omega
  · intro h x
    exact (Nat.mod_lt _ hm).trans_le h

/-! ## Every choice -/

/-- A call without a buffer chooses, and then returns. -/
theorem delivery_none : delivery cfg channelSelector none fixedId =
    if modulus cfg fixedId = 0 then .divisionByZero else .nullBuffer := by
  rw [delivery, getChannelId_fst]
  by_cases hzero : modulus cfg fixedId = 0
  · rw [if_pos hzero, if_pos hzero]
  · rw [if_neg hzero, if_neg hzero]
    rfl

/-- **All calls are safe exactly if every call with a buffer reaches a queue.** -/
theorem selectsInRange_iff_forall : SelectsInRange cfg ↔
    ∀ (channelSelector : UInt64) (fixedId : Option UInt64), modulus cfg fixedId ≠ 0 ∧
      (selected channelSelector fixedId).toNat % modulus cfg fixedId < cfg.numOfSession := by
  constructor
  · intro h channelSelector fixedId
    obtain ⟨hzero, hrange⟩ := h channelSelector (some ⟨0, fixedId⟩) fixedId
    rw [← exists_enqueued_iff ⟨0, fixedId⟩]
    cases hd : delivery cfg channelSelector (some ⟨0, fixedId⟩) fixedId with
    | divisionByZero => exact absurd hd hzero
    | nullBuffer =>
      rw [delivery_some] at hd
      dsimp only at hd
      split at hd
      · cases hd
      · split at hd <;> cases hd
    | enqueued channelId => exact ⟨channelId, rfl⟩
    | outOfRange channelId => exact absurd hd (hrange channelId)
  · intro h channelSelector serializeBuf fixedId
    cases serializeBuf with
    | none =>
      rw [delivery_none, if_neg (h channelSelector fixedId).1]
      simp
    | some buffer =>
      obtain ⟨channelId, hd⟩ := (exists_enqueued_iff buffer).mpr (h channelSelector fixedId)
      rw [hd]
      simp

/-- An option file with these options. -/
def Options.parser (options : Options) : Parser where
  getValueString _ name := if name = "SERVER_IP" then some options.ip else none
  getValueShort _ name := if name = "SERVER_PORT" then some options.port else none
  getValueByte _ name :=
    if name = "WORKER_THREAD" then some options.numOfWorkerThread
    else if name = "USE_IOCPWORKER" then some options.numOfUsingWorkerThread
    else if name = "NAGLE_ON" then some options.isNagleOn
    else if name = "RECONNECT" then some options.isReconnect
    else if name = "SESSION_COUNT" then some options.numOfSession
    else none

/-- **Any three bytes are accepted.** -/
theorem lanClientOptionParsing_optionFile (options : Options) :
    lanClientOptionParsing (some options.parser) = some options := rfl

/-- **The channels are in range exactly if both numbers of threads are between 1 and the number of
sessions**, for all options an option file can give. -/
theorem selectsInRange_iff (options : Options) (ringCapacity : ℕ) :
    lanClientOptionParsing (some options.parser) = some options ∧
      (SelectsInRange (options.config ringCapacity) ↔
        (1 ≤ options.numOfWorkerThread ∧ options.numOfWorkerThread ≤ options.numOfSession) ∧
        (1 ≤ options.numOfUsingWorkerThread ∧
          options.numOfUsingWorkerThread ≤ options.numOfSession)) := by
  refine ⟨lanClientOptionParsing_optionFile options, ?_⟩
  -- one of the two moduli: the numbers it reduces are all of the 64-bit ones
  have hone (n : UInt8) :
      (n.toNat ≠ 0 ∧ ∀ x : UInt64, x.toNat % n.toNat < options.numOfSession.toNat) ↔
        1 ≤ n ∧ n ≤ options.numOfSession := by
    rw [UInt8.le_iff_toNat_le, UInt8.le_iff_toNat_le, ← Nat.one_le_iff_ne_zero]
    refine and_congr_right fun hpos => ?_
    exact forall_selected_iff hpos (n.toNat_lt.le.trans (by decide))
  rw [selectsInRange_iff_forall, ← hone, ← hone]
  constructor
  · intro h
    refine ⟨⟨(h 0 none).1, fun x => ?_⟩, (h 0 (some 0)).1, fun x => (h 0 (some x)).2⟩
    -- the counter before the call that selects with `x`
    have hx := (h (x - 1) none).2
    rwa [selected, Option.getD_none, UInt64.sub_add_cancel] at hx
  · rintro ⟨⟨hworker, hworkers⟩, husing, husings⟩ channelSelector fixedId
    cases fixedId with
    | none => exact ⟨hworker, hworkers _⟩
    | some id => exact ⟨husing, husings _⟩

/-- The option file of the repository. -/
def dbClientOptionFile : Options where
  ip := "127.0.0.1"
  port := 10010
  numOfWorkerThread := 4
  numOfUsingWorkerThread := 4
  isNagleOn := 0
  isReconnect := 1
  numOfSession := 2

/-- **Under the option file of the repository** the second call without an id, the counter at 2
then, reaches for the session 2 of two. -/
theorem not_selectsInRange_dbClientOptionFile :
    lanClientOptionParsing (some dbClientOptionFile.parser) = some dbClientOptionFile ∧
      delivery (dbClientOptionFile.config 8) 1 (some ⟨0, none⟩) none = .outOfRange 2 ∧
      ¬ SelectsInRange (dbClientOptionFile.config 8) :=
  ⟨rfl, by decide, fun h => (h 1 (some ⟨0, none⟩) none).2 2 (by decide)⟩

/-! ## Along a run -/

/-- **A call of `SendPacket` ends the process exactly if it does not reach a queue.** -/
theorem crashed_of_sendPacket (h : step cfg s (.sendPacket i fixedId) = some s') :
    s'.crashed = true ↔
      ¬ ∃ channelId, delivery cfg s.channelSelector (some ⟨s.nextSerial, fixedId⟩) fixedId =
        .enqueued channelId := by
  rw [exists_enqueued_iff]
  unfold step at h
  split at h
  · cases h
  rename_i hrunning
  obtain ⟨t, -, h⟩ := Option.bind_eq_some_iff.mp h
  simp only [sendPacket, getChannelId_fst] at h
  split at h
  · by_cases hzero : modulus cfg fixedId = 0
    · simp only [hzero, if_true, Option.some.injEq] at h
      subst h
      simp [hzero]
    · simp only [hzero, if_false] at h
      split at h
      · rename_i hlt
        simp only [Option.some.injEq] at h
        subst h
        simp only [State.goTo, hrunning, ne_eq, hzero, not_false_eq_true, hlt, and_self, not_true,
          Bool.false_eq_true]
      · rename_i hlt
        simp only [Option.some.injEq] at h
        subst h
        simp [hlt]
  · cases h

/-- **With channels for all threads no call ends the process**, whatever the other threads do. -/
theorem not_crashed_of_sendPacket (hrange : SelectsInRange cfg)
    (h : step cfg s (.sendPacket i fixedId) = some s') : s'.crashed = false := by
  rw [selectsInRange_iff_forall] at hrange
  rw [Bool.eq_false_iff, ne_eq, crashed_of_sendPacket h, not_not, exists_enqueued_iff]
  exact hrange s.channelSelector fixedId

end MultiLanClient

end DdingGameServer
