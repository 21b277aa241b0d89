import DdingGameServer.RIOServer.SendStream
import Mathlib.Logic.Relation
/-!
# RIOServer — `MakeSendStream` and its atomic steps

`makeSendStream` is one call of the function, with every copy it makes; in the system of sessions and
threads the same call is a row of operations that other threads come in between. Left to itself,
that row leaves the same queue and the same kept packet, and hands the packets of the same copies to
`RIOSend` (`opSteps_makeSendStream`). Only the check of `memcpy_s` is in the call alone.
-/

namespace DdingGameServer

namespace RIOServer

/-- An operation on a session leads to one other. -/
def OpStep (cfg : NetConfig) (sid : SessionId) (x y : Op × RIOSession) : Prop :=
  ∃ ok replies sh res, (execOp cfg x.1 ok replies sid sh x.2 res).code = [y.1] ∧
    (execOp cfg x.1 ok replies sid sh x.2 res).session = y.2 ∧
    (execOp cfg x.1 ok replies sid sh x.2 res).shared.crashed = sh.crashed

variable {st : SendStream} {totalSendSize count : ℕ}

/-- The session is left with the queue and the kept packet of the item. -/
def RIOSession.withItem (se : RIOSession) (item : SendItem) : RIOSession :=
  { se with sendQueue := item.sendQueue, reservedBuffer := item.reservedBuffer }

/-- **One round of the loop**, where the call does not crash in it: the packet is kept, or copied. -/
theorem streamLoop_succ (h : (streamLoop st totalSendSize (count + 1)).2.crashed = false) :
    ∃ packet sendQueue, st.item.sendQueue = packet :: sendQueue ∧
      isValidPacketSize packet.length = true ∧
      (maxSendBufferSize ≤ totalSendSize + packet.length ∧
          streamLoop st totalSendSize (count + 1) = (totalSendSize + packet.length,
            { st.dequeue packet sendQueue with
              item := { st.item with sendQueue := sendQueue, reservedBuffer := some packet } }) ∨
        totalSendSize + packet.length < maxSendBufferSize ∧
          streamLoop st totalSendSize (count + 1) =
            streamLoop (st.copyFront packet sendQueue totalSendSize)
              (totalSendSize + packet.length) count) := by
  cases hq : st.item.sendQueue with
  | nil => simp [streamLoop, hq] at h
  | cons packet sendQueue =>
    have hvalid : isValidPacketSize packet.length = true := by
      by_contra hnot
      simp [streamLoop, hq, Bool.not_eq_true _ ▸ hnot] at h
    refine ⟨packet, sendQueue, rfl, hvalid, ?_⟩
    rw [streamLoop_cons hq hvalid] at h ⊢
    by_cases hroom : maxSendBufferSize ≤ totalSendSize + packet.length
    · exact .inl ⟨hroom, if_pos hroom⟩
    · rw [if_neg hroom] at h ⊢
      refine .inr ⟨Nat.not_le.mp hroom, if_neg fun hcrashed => ?_⟩
      rw [if_pos hcrashed, hcrashed] at h
      cases h

/-- **The loop of `MakeSendStream`**, where it does not crash and finds something to send. -/
theorem opSteps_streamLoop (cfg : NetConfig) (sid : SessionId) (sh : Shared) (se : RIOSession)
    (context : ℕ) (h : (streamLoop st totalSendSize count).2.crashed = false)
    (hsize : (streamLoop st totalSendSize count).1 ≠ 0) :
    Relation.ReflTransGen (OpStep cfg sid)
      (.streamLoop context count totalSendSize (st.copies.map MemcpyS.packet),
        se.withItem st.item)
      (.countSend context ((streamLoop st totalSendSize count).2.copies.map MemcpyS.packet),
        se.withItem (streamLoop st totalSendSize count).2.item) := by
  induction count generalizing st totalSendSize with
  | zero =>
    have hpos : totalSendSize ≠ 0 := hsize
    refine .single ⟨true, [], sh, .success, ?_⟩
    simp [execOp, hpos, streamLoop]
  | succ count ih =>
    obtain ⟨packet, sendQueue, hq, hvalid, ⟨hroom, hloop⟩ | ⟨hroom, hloop⟩⟩ := streamLoop_succ h
    · rw [hloop]
      refine .single ⟨true, [], sh, .success, ?_⟩
      simp [execOp, RIOSession.withItem, SendStream.dequeue, hq, hvalid, hroom]
    · rw [hloop] at h hsize ⊢
      refine .head ⟨true, [], sh, .success, ?_⟩ (ih h hsize)
      simp [execOp, RIOSession.withItem, hq, hvalid, Nat.not_le.mpr hroom, queuedCopy]

/-- **A call of `MakeSendStream` and its operations agree**, where it does not crash and finds
something to send: the queue, the packet that is kept, and the packets that are handed on. -/
theorem opSteps_makeSendStream (cfg : NetConfig) (sid : SessionId) (sh : Shared)
    (se : RIOSession) (item : SendItem) (h : (makeSendStream item).2.crashed = false)
    (hsize : (makeSendStream item).1 ≠ 0) :
    Relation.ReflTransGen (OpStep cfg sid) (.makeSendStream, se.withItem item)
      (.countSend sh.nextContext ((makeSendStream item).2.copies.map MemcpyS.packet),
        se.withItem (makeSendStream item).2.item) := by
  obtain ⟨sendQueue, reservedBuffer, memory⟩ := item
  cases reservedBuffer with
  | none =>
    refine .head ⟨true, [], sh, .success, ?_⟩ (opSteps_streamLoop cfg sid sh se _ h hsize)
    simp [execOp, RIOSession.withItem, Shared.allocContext]
  | some packet =>
    by_cases hvalid : isValidPacketSize packet.length = false
    · simp [makeSendStream, hvalid] at h
    · have hcall : makeSendStream ⟨sendQueue, some packet, memory⟩ = _ := if_neg hvalid
      rw [hcall] at h hsize ⊢
      refine .head ⟨true, [], sh, .success, ?_⟩ (opSteps_streamLoop cfg sid sh se _ h hsize)
      simp [execOp, RIOSession.withItem, Shared.allocContext, reservedCopy,
        Bool.not_eq_false _ ▸ hvalid]

end RIOServer

end DdingGameServer
