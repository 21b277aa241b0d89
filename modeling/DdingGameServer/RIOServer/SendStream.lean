import DdingGameServer.RIOServer.SendPath
/-!
# RIOServer — the streams `MakeSendStream` builds

`MakeSendStream` copies the packets that are pending into the send buffer one behind the other, and
keeps the first one that does not fit for the next call. Every packet from the queue is copied to
`&sendBuffer[k]`, the `k`-th `SendRIOBuffer` behind the session's own, where the `k`-th byte of
`rioSendBuffer` is meant, and with a size for `memcpy_s` from which the packet has been subtracted
twice. So one packet of a call reaches the stream, and not even that one from 5462 bytes to 8192.

A `memcpy_s` that fails its check calls the invalid parameter handler, which ends the process. The
code is 64-bit code.
-/

namespace DdingGameServer

namespace RIOServer

/-! ## `MakeSendStream` -/

/-- `sizeof(SendRIOBuffer)`: the array, and `sendBufferId`, which is a pointer. -/
def sizeofSendRIOBuffer : ℕ := maxSendBufferSize + 8

/-- An `int` that is passed for an `rsize_t`. -/
def rsizeT (n : ℤ) : ℕ := (n % 2 ^ 64).toNat

/-- A call of `memcpy_s`. -/
structure MemcpyS where
  /-- The destination, in bytes behind the start of `rioSendBuffer`. -/
  offset : ℕ
  destSize : ℕ
  /-- The source. Its length is the count. -/
  packet : NetBuffer
  deriving DecidableEq, Repr

/-- The check of `memcpy_s`. -/
def MemcpyS.Passes (c : MemcpyS) : Prop := c.packet.length ≤ c.destSize

/-- The copy stays inside `rioSendBuffer`. -/
def MemcpyS.Inside (c : MemcpyS) : Prop := c.offset + c.packet.length ≤ maxSendBufferSize

/-- **The packet is in the stream then.** -/
def MemcpyS.Lands (c : MemcpyS) : Prop := c.Passes ∧ c.Inside

instance (c : MemcpyS) : Decidable c.Passes :=
  inferInstanceAs (Decidable (c.packet.length ≤ c.destSize))

instance (c : MemcpyS) : Decidable c.Inside :=
  inferInstanceAs (Decidable (c.offset + c.packet.length ≤ maxSendBufferSize))

instance (c : MemcpyS) : Decidable c.Lands := inferInstanceAs (Decidable (c.Passes ∧ c.Inside))

/-- A `SendItem`, as far as `MakeSendStream` uses it. -/
structure SendItem where
  sendQueue : List NetBuffer
  reservedBuffer : Option NetBuffer
  /-- The memory from the start of `rioSendBuffer` on. -/
  rioSendBuffer : ℕ → UInt8

/-- The packets that wait to be sent. -/
def SendItem.pending (item : SendItem) : List NetBuffer :=
  item.reservedBuffer.toList ++ item.sendQueue

/-- A call of `MakeSendStream` up to some point. -/
structure SendStream where
  item : SendItem
  /-- History: the calls of `memcpy_s`, -/
  copies : List MemcpyS
  /-- and the packets `Dequeue` gave. -/
  dequeued : List NetBuffer
  crashed : Bool

/-- The memory after a copy. -/
def overwrite (memory : ℕ → UInt8) (offset : ℕ) (packet : NetBuffer) : ℕ → UInt8 :=
  fun p => if offset ≤ p then packet.getD (p - offset) (memory p) else memory p

/-- `memcpy_s`. -/
def SendStream.memcpyS (st : SendStream) (c : MemcpyS) : SendStream :=
  if c.Passes then
    { st with
      item := { st.item with rioSendBuffer := overwrite st.item.rioSendBuffer c.offset c.packet }
      copies := st.copies ++ [c] }
  else { st with copies := st.copies ++ [c], crashed := true }

/-- The copy of a packet from the queue; `totalSendSize` has its size already. -/
def queuedCopy (totalSendSize : ℕ) (packet : NetBuffer) : MemcpyS where
  offset := (totalSendSize - packet.length) * sizeofSendRIOBuffer
  destSize := rsizeT (maxSendBufferSize - totalSendSize - packet.length)
  packet := packet

/-- The copy of the packet that was kept. -/
def reservedCopy (packet : NetBuffer) : MemcpyS where
  offset := 0
  destSize := maxSendBufferSize
  packet := packet

/-- `Dequeue`. -/
def SendStream.dequeue (st : SendStream) (packet : NetBuffer) (sendQueue : List NetBuffer) :
    SendStream :=
  { st with item := { st.item with sendQueue := sendQueue }, dequeued := st.dequeued ++ [packet] }

/-- The loop of `MakeSendStream`, for the next `bufferCount` packets: the size it returns, and what
it has done. -/
def streamLoop (st : SendStream) (totalSendSize : ℕ) : ℕ → ℕ × SendStream
  | 0 => (totalSendSize, st)
  | bufferCount + 1 =>
    match st.item.sendQueue with
    -- nothing to dequeue leaves `netBufferPtr` dangling
    | [] => (0, { st with crashed := true })
    | packet :: sendQueue =>
      let st := st.dequeue packet sendQueue
      -- a packet too large crashes the process (`USE_CRASH_SEND_BUFFER_OVER`)
      if isValidPacketSize packet.length = false then (0, { st with crashed := true })
      else
        let totalSendSize := totalSendSize + packet.length
        if maxSendBufferSize ≤ totalSendSize then
          (totalSendSize, { st with item := { st.item with reservedBuffer := some packet } })
        else
          let st := st.memcpyS (queuedCopy totalSendSize packet)
          if st.crashed = true then (0, st) else streamLoop st totalSendSize bufferCount

/-- `MakeSendStream`. -/
def makeSendStream (item : SendItem) : ℕ × SendStream :=
  let bufferCount := item.sendQueue.length
  let st : SendStream := ⟨item, [], [], false⟩
  match item.reservedBuffer with
  | none => streamLoop st 0 bufferCount
  | some packet =>
    if isValidPacketSize packet.length = false then (0, { st with crashed := true })
    else
      let st := st.memcpyS (reservedCopy packet)
      streamLoop { st with item := { st.item with reservedBuffer := none } } packet.length
        bufferCount

/-- **The packets of the stream**: the one that was kept, and those that were dequeued and not kept
for the next call. -/
def streamed (item : SendItem) : List NetBuffer :=
  let st := (makeSendStream item).2
  item.reservedBuffer.toList ++
    if st.item.reservedBuffer.isSome then st.dequeued.dropLast else st.dequeued

/-- **The stream is what it is announced to be.** -/
structure StreamRight (item : SendItem) : Prop where
  size_le : (makeSendStream item).1 ≤ maxSendBufferSize
  inside : ∀ c ∈ (makeSendStream item).2.copies, c.Inside
  passes : ∀ c ∈ (makeSendStream item).2.copies, c.Passes
  stream : (List.range (makeSendStream item).1).map (makeSendStream item).2.item.rioSendBuffer =
    (streamed item).flatten

/-- The `memcpy_s` of a first packet from the queue passes. -/
def FirstChecked (item : SendItem) : Prop :=
  item.reservedBuffer = none → ∀ packet ∈ item.sendQueue.head?,
    3 * packet.length ≤ maxSendBufferSize ∨ maxSendBufferSize < 2 * packet.length

instance (item : SendItem) : Decidable (FirstChecked item) :=
  inferInstanceAs (Decidable (item.reservedBuffer = none → ∀ packet ∈ item.sendQueue.head?,
    3 * packet.length ≤ maxSendBufferSize ∨ maxSendBufferSize < 2 * packet.length))

/-- A second packet does not fit behind the first. -/
def SecondKept (item : SendItem) : Prop :=
  ∀ first second rest, item.pending = first :: second :: rest →
    maxSendBufferSize ≤ first.length + second.length

instance (item : SendItem) : Decidable (SecondKept item) :=
  match h : item.pending with
  | first :: second :: _ =>
    decidable_of_iff (maxSendBufferSize ≤ first.length + second.length)
      ⟨fun hle first' second' rest h' => by
        obtain ⟨rfl, htail⟩ := List.cons.inj (h.symm.trans h')
        obtain ⟨rfl, -⟩ := List.cons.inj htail
        exact hle, fun hkept => hkept first second _ h⟩
  | [] => .isTrue fun first second rest h' => by simp [h] at h'
  | [_] => .isTrue fun first second rest h' => by simp [h] at h'

variable {item : SendItem} {st : SendStream} {packet : NetBuffer} {sendQueue : List NetBuffer}
  {totalSendSize count : ℕ} {c : MemcpyS}

/-! ## One copy -/

/-- A packet the check of `memcpy_s` refuses ends the process. -/
theorem memcpyS_of_not_passes (h : ¬ c.Passes) :
    st.memcpyS c = { st with copies := st.copies ++ [c], crashed := true } :=
  if_neg h

theorem memcpyS_of_passes (h : c.Passes) :
    st.memcpyS c = { st with
      item := { st.item with rioSendBuffer := overwrite st.item.rioSendBuffer c.offset c.packet }
      copies := st.copies ++ [c] } :=
  if_pos h

@[simp] theorem copies_memcpyS : (st.memcpyS c).copies = st.copies ++ [c] := by
  unfold SendStream.memcpyS
  split <;> rfl

@[simp] theorem dequeued_memcpyS : (st.memcpyS c).dequeued = st.dequeued := by
  unfold SendStream.memcpyS
  split <;> rfl

@[simp] theorem sendQueue_memcpyS : (st.memcpyS c).item.sendQueue = st.item.sendQueue := by
  unfold SendStream.memcpyS
  split <;> rfl

@[simp] theorem reservedBuffer_memcpyS :
    (st.memcpyS c).item.reservedBuffer = st.item.reservedBuffer := by
  unfold SendStream.memcpyS
  split <;> rfl

/-- The kept packet lands. -/
theorem lands_reservedCopy (h : Sized packet) : (reservedCopy packet).Lands := by
  have hlt := h.2
  refine ⟨?_, ?_⟩
  · show packet.length ≤ maxSendBufferSize
    omega
  · show 0 + packet.length ≤ maxSendBufferSize
    omega

/-- **A first packet from the queue lands unless it is too large for the size given**, which is
negative, and so very large, for a packet of more than half the buffer. -/
theorem lands_queuedCopy_iff (h : Sized packet) : (queuedCopy packet.length packet).Lands ↔
    3 * packet.length ≤ maxSendBufferSize ∨ maxSendBufferSize < 2 * packet.length := by
  have hlt := h.2
  simp only [MemcpyS.Lands, MemcpyS.Passes, MemcpyS.Inside, queuedCopy, rsizeT, Nat.sub_self,
    Nat.zero_mul, maxSendBufferSize] at hlt ⊢
  omega

/-- **A packet behind another one goes beside the buffer.** -/
theorem not_inside_queuedCopy (h : 0 < totalSendSize) :
    ¬ (queuedCopy (totalSendSize + packet.length) packet).Inside := by
  have hmul : 1 * sizeofSendRIOBuffer ≤ totalSendSize * sizeofSendRIOBuffer :=
    Nat.mul_le_mul_right _ h
  simp only [MemcpyS.Inside, queuedCopy, Nat.add_sub_cancel]
  simp only [sizeofSendRIOBuffer, maxSendBufferSize] at hmul ⊢
  omega

/-! ## The loop -/

/-- The front packet of the queue dequeued and copied. -/
def SendStream.copyFront (st : SendStream) (packet : NetBuffer) (sendQueue : List NetBuffer)
    (totalSendSize : ℕ) : SendStream :=
  (st.dequeue packet sendQueue).memcpyS (queuedCopy (totalSendSize + packet.length) packet)

@[simp] theorem copies_copyFront : (st.copyFront packet sendQueue totalSendSize).copies =
    st.copies ++ [queuedCopy (totalSendSize + packet.length) packet] :=
  copies_memcpyS

@[simp] theorem sendQueue_copyFront :
    (st.copyFront packet sendQueue totalSendSize).item.sendQueue = sendQueue :=
  sendQueue_memcpyS

@[simp] theorem reservedBuffer_copyFront :
    (st.copyFront packet sendQueue totalSendSize).item.reservedBuffer = st.item.reservedBuffer :=
  reservedBuffer_memcpyS

@[simp] theorem dequeued_copyFront :
    (st.copyFront packet sendQueue totalSendSize).dequeued = st.dequeued ++ [packet] :=
  dequeued_memcpyS

theorem crashed_copyFront (h : (queuedCopy (totalSendSize + packet.length) packet).Passes) :
    (st.copyFront packet sendQueue totalSendSize).crashed = st.crashed := by
  rw [SendStream.copyFront, memcpyS_of_passes h]
  rfl

theorem Sized.isValid (h : Sized packet) : isValidPacketSize packet.length = true :=
  decide_eq_true h.2

/-- **One round of the loop**, on a packet that is not too large: the packet is kept, or copied. -/
theorem streamLoop_cons (hq : st.item.sendQueue = packet :: sendQueue)
    (hvalid : isValidPacketSize packet.length = true) :
    streamLoop st totalSendSize (count + 1) =
      if maxSendBufferSize ≤ totalSendSize + packet.length then
        (totalSendSize + packet.length, { st.dequeue packet sendQueue with
          item := { st.item with sendQueue := sendQueue, reservedBuffer := some packet } })
      else if (st.copyFront packet sendQueue totalSendSize).crashed = true then
        (0, st.copyFront packet sendQueue totalSendSize)
      else
        streamLoop (st.copyFront packet sendQueue totalSendSize) (totalSendSize + packet.length)
          count := by
  rw [streamLoop]
  simp only [hq, hvalid, Bool.true_eq_false, if_false]
  rfl

/-- What was copied before stays copied. -/
theorem copies_prefix_streamLoop (count : ℕ) (st : SendStream) (totalSendSize : ℕ) :
    st.copies <+: (streamLoop st totalSendSize count).2.copies := by
  induction count generalizing st totalSendSize with
  | zero => exact List.prefix_rfl
  | succ count ih =>
    rw [streamLoop]
    cases hq : st.item.sendQueue with
    | nil => exact List.prefix_rfl
    | cons packet sendQueue =>
      dsimp only
      split
      · exact List.prefix_rfl
      · split
        · exact List.prefix_rfl
        · split
          · rw [copies_memcpyS]
            exact List.prefix_append _ _
          · refine List.IsPrefix.trans ?_ (ih _ _)
            rw [copies_memcpyS]
            exact List.prefix_append _ _

/-- A packet that is not kept is copied. -/
theorem mem_copies_streamLoop (hq : st.item.sendQueue = packet :: sendQueue)
    (hvalid : isValidPacketSize packet.length = true)
    (hroom : ¬ maxSendBufferSize ≤ totalSendSize + packet.length) :
    queuedCopy (totalSendSize + packet.length) packet ∈
      (streamLoop st totalSendSize (count + 1)).2.copies := by
  have hmem : queuedCopy (totalSendSize + packet.length) packet ∈
      (st.copyFront packet sendQueue totalSendSize).copies := by
    rw [copies_copyFront]
    exact List.mem_append_right _ List.mem_cons_self
  rw [streamLoop_cons hq hvalid, if_neg hroom]
  split
  · exact hmem
  · exact (copies_prefix_streamLoop _ _ _).subset hmem

/-- **Every packet the loop takes off the queue is copied or kept**, in order. -/
theorem sources_streamLoop (hsized : ∀ packet ∈ st.item.sendQueue, Sized packet)
    (hcount : count ≤ st.item.sendQueue.length) (hreserved : st.item.reservedBuffer = none) :
    (streamLoop st totalSendSize count).2.copies.map MemcpyS.packet ++
        (streamLoop st totalSendSize count).2.item.pending =
      st.copies.map MemcpyS.packet ++ st.item.sendQueue := by
  induction count generalizing st totalSendSize with
  | zero =>
    simp only [streamLoop, SendItem.pending, hreserved, Option.toList_none, List.nil_append]
  | succ count ih =>
    cases hq : st.item.sendQueue with
    | nil =>
      rw [hq] at hcount
      exact absurd hcount (Nat.not_succ_le_zero count)
    | cons packet sendQueue =>
      rw [hq] at hsized hcount
      have hcopied : (st.copyFront packet sendQueue totalSendSize).copies.map MemcpyS.packet =
          st.copies.map MemcpyS.packet ++ [packet] := by
        rw [copies_copyFront, List.map_append]
        rfl
      rw [streamLoop_cons hq (hsized packet List.mem_cons_self).isValid]
      split
      · simp only [SendStream.dequeue, SendItem.pending, Option.toList_some,
          List.singleton_append]
      · split
        · rw [hcopied]
          simp [SendItem.pending, hreserved]
        · rw [@ih (st.copyFront packet sendQueue totalSendSize) (totalSendSize + packet.length)]
          · rw [hcopied]
            simp
          · rw [sendQueue_copyFront]
            exact fun b hb => hsized b (List.mem_cons_of_mem _ hb)
          · rw [sendQueue_copyFront]
            exact Nat.le_of_succ_le_succ hcount
          · rw [reservedBuffer_copyFront, hreserved]

/-- The loop crashes only where a copy fails its check. -/
theorem crashed_streamLoop (hsized : ∀ packet ∈ st.item.sendQueue, Sized packet)
    (hcount : count ≤ st.item.sendQueue.length) (hcrashed : st.crashed = false)
    (hpasses : ∀ c ∈ (streamLoop st totalSendSize count).2.copies, c.Passes) :
    (streamLoop st totalSendSize count).2.crashed = false := by
  induction count generalizing st totalSendSize with
  | zero => exact hcrashed
  | succ count ih =>
    cases hq : st.item.sendQueue with
    | nil =>
      rw [hq] at hcount
      exact absurd hcount (Nat.not_succ_le_zero count)
    | cons packet sendQueue =>
      rw [hq] at hsized hcount
      rw [streamLoop_cons hq (hsized packet List.mem_cons_self).isValid] at hpasses ⊢
      by_cases hkept : maxSendBufferSize ≤ totalSendSize + packet.length
      · rw [if_pos hkept]
        exact hcrashed
      · rw [if_neg hkept] at hpasses ⊢
        by_cases hpass : (queuedCopy (totalSendSize + packet.length) packet).Passes
        · have hgoes : (st.copyFront packet sendQueue totalSendSize).crashed = false :=
            (crashed_copyFront hpass).trans hcrashed
          rw [hgoes] at hpasses ⊢
          refine ih ?_ ?_ hgoes hpasses
          · rw [sendQueue_copyFront]
            exact fun b hb => hsized b (List.mem_cons_of_mem _ hb)
          · rw [sendQueue_copyFront]
            exact Nat.le_of_succ_le_succ hcount
        · refine absurd (hpasses _ ?_) hpass
          rw [SendStream.copyFront, memcpyS_of_not_passes hpass]
          simp

/-- **Behind something that is in the stream, everything lands only where the next packet is
kept**. -/
theorem lands_streamLoop_iff (hq : st.item.sendQueue = packet :: sendQueue) (h : Sized packet)
    (htotal : 0 < totalSendSize) :
    (∀ c ∈ (streamLoop st totalSendSize (count + 1)).2.copies, c.Lands) ↔
      (∀ c ∈ st.copies, c.Lands) ∧ maxSendBufferSize ≤ totalSendSize + packet.length := by
  by_cases hkept : maxSendBufferSize ≤ totalSendSize + packet.length
  · rw [streamLoop_cons hq h.isValid, if_pos hkept]
    exact (and_iff_left hkept).symm
  · refine iff_of_false (fun hlands => ?_) fun hboth => hkept hboth.2
    exact not_inside_queuedCopy htotal (hlands _ (mem_copies_streamLoop hq h.isValid hkept)).2

/-! ## A whole call -/

variable {first second : NetBuffer} {rest : List NetBuffer}

/-- **The first packet is in the stream**, and nothing else is. -/
structure FirstCopied (item : SendItem) (first : NetBuffer) (rest : List NetBuffer)
    (st : SendStream) : Prop where
  sendQueue : st.item.sendQueue = rest
  reservedBuffer : st.item.reservedBuffer = none
  memory : st.item.rioSendBuffer = overwrite item.rioSendBuffer 0 first
  copies : ∃ c : MemcpyS, st.copies = [c] ∧ c.packet = first ∧ c.Lands
  dequeued : item.reservedBuffer.toList ++ st.dequeued = [first]
  crashed : st.crashed = false

/-- A call with nothing to send. -/
theorem makeSendStream_of_pending_nil (h : item.pending = []) :
    makeSendStream item = (0, ⟨item, [], [], false⟩) := by
  obtain ⟨sendQueue, reservedBuffer, memory⟩ := item
  obtain ⟨hreserved, hq⟩ := List.append_eq_nil_iff.mp h
  obtain rfl : reservedBuffer = none := by simpa using hreserved
  obtain rfl : sendQueue = [] := hq
  rfl

/-- **A call begins with the first packet** that is pending, if `memcpy_s` takes it. -/
theorem exists_firstCopied (h : item.pending = first :: rest) (hsized : Sized first)
    (hchecked : FirstChecked item) :
    ∃ st, FirstCopied item first rest st ∧
      makeSendStream item = streamLoop st first.length rest.length := by
  obtain ⟨sendQueue, reservedBuffer, memory⟩ := item
  cases reservedBuffer with
  | some packet =>
    obtain ⟨rfl, rfl⟩ := List.cons.inj h
    have hlands := lands_reservedCopy hsized
    refine ⟨⟨⟨sendQueue, none, overwrite memory 0 packet⟩, [reservedCopy packet], [], false⟩,
      ⟨rfl, rfl, rfl, ⟨_, rfl, rfl, hlands⟩, rfl, rfl⟩, ?_⟩
    simp only [makeSendStream, hsized.isValid, Bool.true_eq_false, if_false,
      memcpyS_of_passes hlands.1]
    rfl
  | none =>
    have hq : sendQueue = first :: rest := h
    subst hq
    have hlands : (queuedCopy (0 + first.length) first).Lands := by
      rw [Nat.zero_add]
      exact (lands_queuedCopy_iff hsized).mpr (hchecked rfl first rfl)
    have hroom : ¬ maxSendBufferSize ≤ 0 + first.length := by
      have hlt := hsized.2
      omega
    have hgoes : (SendStream.copyFront ⟨⟨first :: rest, none, memory⟩, [], [], false⟩
        first rest 0).crashed = false := crashed_copyFront hlands.1
    refine ⟨SendStream.copyFront ⟨⟨first :: rest, none, memory⟩, [], [], false⟩ first rest 0,
      ⟨sendQueue_copyFront, reservedBuffer_copyFront, ?_, ⟨_, copies_copyFront, rfl, hlands⟩,
        dequeued_copyFront, hgoes⟩, ?_⟩
    · rw [SendStream.copyFront, memcpyS_of_passes hlands.1]
      show overwrite memory ((0 + first.length - first.length) * sizeofSendRIOBuffer) first = _
      rw [Nat.add_sub_cancel, Nat.zero_mul]
    · simp only [makeSendStream, List.length_cons]
      rw [streamLoop_cons rfl hsized.isValid, if_neg hroom, hgoes, if_neg Bool.false_ne_true,
        Nat.zero_add]

/-- Otherwise a copy fails its check. -/
theorem not_passes_of_not_firstChecked (hsized : ∀ packet ∈ item.sendQueue, Sized packet)
    (h : ¬ FirstChecked item) : ∃ c ∈ (makeSendStream item).2.copies, ¬ c.Passes := by
  obtain ⟨sendQueue, reservedBuffer, memory⟩ := item
  simp only [FirstChecked, not_forall] at h
  obtain ⟨hnone, first, hfirst, hcheck⟩ := h
  obtain rfl : reservedBuffer = none := hnone
  cases sendQueue with
  | nil => cases hfirst
  | cons packet rest =>
    obtain rfl := Option.some.inj hfirst
    have hpacket := hsized packet List.mem_cons_self
    have hroom : ¬ maxSendBufferSize ≤ 0 + packet.length := by
      have hlt := hpacket.2
      omega
    refine ⟨queuedCopy (0 + packet.length) packet, ?_, fun hpasses => hcheck ?_⟩
    · simp only [makeSendStream, List.length_cons]
      exact mem_copies_streamLoop rfl hpacket.isValid hroom
    · rw [Nat.zero_add] at hpasses
      refine (lands_queuedCopy_iff hpacket).mp ⟨hpasses, ?_⟩
      show (packet.length - packet.length) * sizeofSendRIOBuffer + packet.length ≤ _
      have hlt := hpacket.2
      rw [Nat.sub_self, Nat.zero_mul]
      omega

/-- **Every pending packet is copied, kept or left in the queue**, in order. -/
theorem sources_makeSendStream (hsized : ∀ packet ∈ item.pending, Sized packet) :
    (makeSendStream item).2.copies.map MemcpyS.packet ++ (makeSendStream item).2.item.pending =
      item.pending := by
  obtain ⟨sendQueue, reservedBuffer, memory⟩ := item
  have hqueue : ∀ packet ∈ sendQueue, Sized packet := fun packet hpacket =>
    hsized packet (List.mem_append_right _ hpacket)
  cases reservedBuffer with
  | none =>
    rw [makeSendStream, sources_streamLoop hqueue (Nat.le_refl _) rfl]
    rfl
  | some packet =>
    have hpacket : Sized packet := hsized packet List.mem_cons_self
    simp only [makeSendStream, hpacket.isValid, Bool.true_eq_false, if_false,
      memcpyS_of_passes (lands_reservedCopy hpacket).1]
    rw [sources_streamLoop hqueue (Nat.le_refl _) rfl]
    rfl

/-- The first packet that is pending, and those behind it. -/
theorem sized_of_pending (hsized : ∀ packet ∈ item.pending, Sized packet)
    (h : item.pending = first :: rest) : Sized first ∧ ∀ packet ∈ rest, Sized packet := by
  rw [h] at hsized
  exact List.forall_mem_cons.mp hsized

/-- **All that is copied is in the stream exactly where the first packet passes its check and the
second, if there is one, does not fit.** -/
theorem lands_makeSendStream_iff (hsized : ∀ packet ∈ item.pending, Sized packet) :
    (∀ c ∈ (makeSendStream item).2.copies, c.Lands) ↔ FirstChecked item ∧ SecondKept item := by
  by_cases hchecked : FirstChecked item
  · rw [and_iff_right hchecked]
    cases hpending : item.pending with
    | nil =>
      rw [makeSendStream_of_pending_nil hpending]
      refine iff_of_true (fun c hc => absurd hc List.not_mem_nil) fun first second rest h => ?_
      rw [hpending] at h
      cases h
    | cons first rest =>
      obtain ⟨hfirst, hrest⟩ := sized_of_pending hsized hpending
      obtain ⟨st, hst, hcall⟩ := exists_firstCopied hpending hfirst hchecked
      obtain ⟨c, hcopies, -, hlands⟩ := hst.copies
      have hall : ∀ d ∈ st.copies, d.Lands := by
        rw [hcopies]
        exact List.forall_mem_singleton.mpr hlands
      rw [hcall]
      cases rest with
      | nil =>
        refine iff_of_true hall fun first' second rest h => ?_
        rw [hpending] at h
        cases (List.cons.inj h).2
      | cons second rest =>
        have hpos : 0 < first.length := List.length_pos_of_ne_nil hfirst.1
        rw [List.length_cons, lands_streamLoop_iff hst.sendQueue (hrest second List.mem_cons_self)
          hpos, and_iff_right hall]
        constructor
        · intro hkept first' second' rest' h
          rw [hpending] at h
          obtain ⟨rfl, htail⟩ := List.cons.inj h
          obtain ⟨rfl, -⟩ := List.cons.inj htail
          exact hkept
        · exact fun h => h first second rest hpending
  · obtain ⟨c, hc, hnot⟩ := not_passes_of_not_firstChecked
      (fun packet hpacket => hsized packet (List.mem_append_right _ hpacket)) hchecked
    exact iff_of_false (fun hlands => hnot (hlands c hc).1) fun h => hchecked h.1

/-- Nothing crashes where every copy lands. -/
theorem crashed_makeSendStream (hsized : ∀ packet ∈ item.pending, Sized packet)
    (hlands : ∀ c ∈ (makeSendStream item).2.copies, c.Lands) :
    (makeSendStream item).2.crashed = false := by
  have hchecked := ((lands_makeSendStream_iff hsized).mp hlands).1
  cases hpending : item.pending with
  | nil => rw [makeSendStream_of_pending_nil hpending]
  | cons first rest =>
    obtain ⟨hfirst, hrest⟩ := sized_of_pending hsized hpending
    obtain ⟨st, hst, hcall⟩ := exists_firstCopied hpending hfirst hchecked
    rw [hcall] at hlands ⊢
    refine crashed_streamLoop ?_ ?_ hst.crashed fun c hc => (hlands c hc).1
    · rw [hst.sendQueue]
      exact hrest
    · rw [hst.sendQueue]

/-- **A call with something to send copies the first packet.** -/
theorem copies_ne_nil (hsized : ∀ packet ∈ item.pending, Sized packet)
    (hlands : ∀ c ∈ (makeSendStream item).2.copies, c.Lands) (hpending : item.pending ≠ []) :
    (makeSendStream item).2.copies ≠ [] := by
  have hchecked := ((lands_makeSendStream_iff hsized).mp hlands).1
  obtain ⟨first, rest, hcons⟩ := List.exists_cons_of_ne_nil hpending
  obtain ⟨hfirst, -⟩ := sized_of_pending hsized hcons
  obtain ⟨st, hst, hcall⟩ := exists_firstCopied hcons hfirst hchecked
  obtain ⟨c, hcopies, -, -⟩ := hst.copies
  have hcopied := copies_prefix_streamLoop rest.length st first.length
  rw [hcall]
  intro hnil
  rw [hnil, hcopies] at hcopied
  cases List.prefix_nil.mp hcopied

/-! ## The stream -/

/-- The bytes a copy to the start of the buffer puts there. -/
theorem map_range_overwrite (memory : ℕ → UInt8) (packet : NetBuffer) :
    (List.range packet.length).map (overwrite memory 0 packet) = packet := by
  refine List.ext_getElem (by simp) fun p hp hp' => ?_
  simp [overwrite, List.getD_eq_getElem?_getD, List.getElem?_eq_getElem hp']

/-- **`MakeSendStream` builds the stream it announces exactly where at most one packet is pending**,
and `memcpy_s` takes it. -/
theorem streamRight_iff (hsized : ∀ packet ∈ item.pending, Sized packet) :
    StreamRight item ↔ item.pending.length ≤ 1 ∧ FirstChecked item := by
  constructor
  · intro h
    obtain ⟨hchecked, hkept⟩ := (lands_makeSendStream_iff hsized).mp fun c hc =>
      ⟨h.passes c hc, h.inside c hc⟩
    refine ⟨?_, hchecked⟩
    -- a second packet does not fit, but its size is in the size that is announced
    by_contra hlong
    obtain ⟨first, second, rest, hpending⟩ : ∃ first second rest,
        item.pending = first :: second :: rest := by
      match hp : item.pending with
      | [] | [_] => simp [hp] at hlong
      | first :: second :: rest => exact ⟨first, second, rest, rfl⟩
    obtain ⟨hfirst, hrest⟩ := sized_of_pending hsized hpending
    have hsecond := hrest second List.mem_cons_self
    obtain ⟨st, hst, hcall⟩ := exists_firstCopied hpending hfirst hchecked
    have hstream := h.stream
    rw [streamed, hcall, List.length_cons, streamLoop_cons hst.sendQueue hsecond.isValid,
      if_pos (hkept first second rest hpending)] at hstream
    have hlength := congrArg List.length hstream
    simp only [SendStream.dequeue, Option.isSome_some, if_true, List.dropLast_concat, hst.dequeued,
      List.length_map, List.length_range, List.flatten_cons, List.flatten_nil,
      List.append_nil] at hlength
    have hpos : 0 < second.length := List.length_pos_of_ne_nil hsecond.1
    omega
  · rintro ⟨hone, hchecked⟩
    have hlands : ∀ c ∈ (makeSendStream item).2.copies, c.Lands := by
      refine (lands_makeSendStream_iff hsized).mpr ⟨hchecked, fun first second rest h => ?_⟩
      rw [h] at hone
      simp at hone
    suffices hcall : (makeSendStream item).1 ≤ maxSendBufferSize ∧
        (List.range (makeSendStream item).1).map (makeSendStream item).2.item.rioSendBuffer =
          (streamed item).flatten from
      ⟨hcall.1, fun c hc => (hlands c hc).2, fun c hc => (hlands c hc).1, hcall.2⟩
    cases hpending : item.pending with
    | nil =>
      have hnone : item.reservedBuffer.toList = [] := (List.append_eq_nil_iff.mp hpending).1
      rw [streamed, makeSendStream_of_pending_nil hpending, hnone]
      refine ⟨Nat.zero_le _, ?_⟩
      show [] = (if item.reservedBuffer.isSome then [].dropLast else []).flatten
      rw [List.dropLast_nil, ite_self, List.flatten_nil]
    | cons first rest =>
      rw [hpending, List.length_cons] at hone
      obtain rfl : rest = [] := List.eq_nil_of_length_eq_zero (by omega)
      obtain ⟨hfirst, -⟩ := sized_of_pending hsized hpending
      obtain ⟨st, hst, hcall⟩ := exists_firstCopied hpending hfirst hchecked
      have hcall' : makeSendStream item = (first.length, st) := hcall
      rw [streamed, hcall']
      refine ⟨hfirst.2.le, ?_⟩
      simp only [hst.memory, hst.reservedBuffer, Option.isSome_none, Bool.false_eq_true, if_false,
        hst.dequeued, map_range_overwrite, List.flatten_cons, List.flatten_nil, List.append_nil]

/-- One packet that was kept goes out alone. -/
theorem streamRight_reserved : StreamRight ⟨[], some [1, 2, 3], fun _ => 0⟩ ∧
    makeSendStream ⟨[], some [1, 2, 3], fun _ => 0⟩ = (3, ⟨⟨[], none,
      overwrite (fun _ => 0) 0 [1, 2, 3]⟩, [reservedCopy [1, 2, 3]], [], false⟩) :=
  ⟨(streamRight_iff (by decide)).mpr ⟨by decide, fun h => by cases h⟩, rfl⟩

/-- **Two packets of one byte**: the second is copied behind the buffer. -/
theorem not_streamRight_two : ¬ StreamRight ⟨[[1], [2]], none, fun _ => 0⟩ := by
  intro h
  have hinside := h.inside (queuedCopy 2 [2]) (by decide +kernel)
  exact absurd hinside (by decide)

end RIOServer

end DdingGameServer
