import DdingGameServer.Common.Accumulator
import DdingGameServer.RIOServer.Rings
/-!
# RIOServer — the receive offset over a long connection

`RecvCompleted` adds what was transferred to `rioRecvOffset`, 32 bits wide, and `RecvPost` takes the
result modulo the size of the ring. From the 4 GiB on that a session receives, the offset has
wrapped, and it is where the ring expects the next byte only if the size of the ring divides what
the wraps have taken away; so a ring whose size divides `2 ^ 32` never notices.
-/

namespace DdingGameServer

namespace RIOServer

variable {cfg : NetConfig} {ringMax n : ℕ} {s : RingState} {event : RingEvent}
  {es : List RingEvent} {se : ReceivingSession} {ring : RecvRIOBuffer} {first : Bool}

/-- `session.rioRecvOffset += transferred`. -/
def ReceivingSession.received (se : ReceivingSession) (transferred : UInt32) : ReceivingSession :=
  { se with rioRecvOffset := se.rioRecvOffset + transferred }

/-- A session after the completions with these sizes, from its first receive on. -/
def afterCompletions (recvBuffer : ℕ) (transferred : List UInt32) : ReceivingSession :=
  transferred.foldl ReceivingSession.received ⟨recvBuffer, 0, true, true⟩

/-- The `Offset` of the receive `RecvPost` posts then. -/
def offsetAfter (ringMax recvBuffer : ℕ) (ring : RecvRIOBuffer) (transferred : List UInt32) : ℕ :=
  (postedReceive ringMax false (afterCompletions recvBuffer transferred) ring).offset

/-- The bytes that were transferred. -/
def totalSize (transferred : List UInt32) : ℕ := (transferred.map UInt32.toNat).sum

/-- **The offset is the sum, 32 bits wide.** -/
theorem toNat_afterCompletions (recvBuffer : ℕ) (transferred : List UInt32) :
    (afterCompletions recvBuffer transferred).rioRecvOffset.toNat =
      totalSize transferred % 2 ^ 32 := by
  have hfold : ∀ (se : ReceivingSession),
      (transferred.foldl ReceivingSession.received se).rioRecvOffset.toNat =
        (se.rioRecvOffset.toNat + totalSize transferred) % 2 ^ 32 := by
    induction transferred with
    | nil =>
      intro se
      exact (Nat.mod_eq_of_lt se.rioRecvOffset.toNat_lt).symm
    | cons x transferred ih =>
      intro se
      rw [List.foldl_cons, ih]
      show ((se.rioRecvOffset + x).toNat + totalSize transferred) % 2 ^ 32 = _
      rw [UInt32.toNat_add, Nat.mod_add_mod, Nat.add_assoc]
      rfl
  rw [afterCompletions, hfold]
  exact congrArg (· % 2 ^ 32) (Nat.zero_add _)

/-- **The offset is where the ring expects the next byte exactly if the size of the ring divides what
the wraps have taken away**, for every ring size and every sequence of transferred sizes; and it is
there after each of them exactly if the size divides `2 ^ 32` or the sum has not wrapped. -/
theorem offsetAfter_eq_iff (ringMax recvBuffer : ℕ) (ring : RecvRIOBuffer)
    (transferred : List UInt32) :
    (offsetAfter ringMax recvBuffer ring transferred = totalSize transferred % ringMax ↔
      ringMax ∣ 2 ^ 32 * (totalSize transferred / 2 ^ 32)) ∧
    ((∀ sizes, sizes <+: transferred →
        offsetAfter ringMax recvBuffer ring sizes = totalSize sizes % ringMax) ↔
      ringMax ∣ 2 ^ 32 ∨ totalSize transferred < 2 ^ 32) := by
  have hoffset : ∀ sizes, offsetAfter ringMax recvBuffer ring sizes =
      totalSize sizes % 2 ^ 32 % ringMax := by
    intro sizes
    show (afterCompletions recvBuffer sizes).rioRecvOffset.toNat % ringMax = _
    rw [toNat_afterCompletions]
  have hlt : ∀ x ∈ transferred.map UInt32.toNat, x < 2 ^ 32 := by
    intro x hx
    obtain ⟨size, -, rfl⟩ := List.mem_map.mp hx
    exact size.toNat_lt
  refine ⟨by rw [hoffset, Accumulator.mod_mod_eq_iff], ?_⟩
  rw [totalSize, ← Accumulator.forall_prefix_iff (by decide) hlt]
  constructor
  · rintro h p hp
    obtain ⟨sizes, hsizes, rfl⟩ := List.prefix_map_iff.mp hp
    exact (hoffset sizes).symm.trans (h sizes hsizes)
  · intro h sizes hsizes
    exact (hoffset sizes).trans (h _ (hsizes.map _))

/-- **4 GiB into a ring of 10000 bytes**: the offset has wrapped to the start, and the ring is
elsewhere. -/
theorem offsetAfter_ne_tenThousand :
    offsetAfter 10000 0 ⟨7296, []⟩ [4294967295, 1] = 0 ∧
      totalSize [4294967295, 1] % 10000 = 7296 ∧
      offsetAfter 10000 0 ⟨7296, []⟩ [4294967295, 1] ≠ totalSize [4294967295, 1] % 10000 := by
  decide

/-! ## Any number of sessions -/

/-- **A ring whose size divides `2 ^ 32` does not notice a wrap.** -/
theorem movesOffset_of_dvd (hdvd : ringMax ∣ 2 ^ 32) : MovesOffset ringMax s event := by
  cases event with
  | recvCompleted sid data ok =>
    intro se _
    have hadd : (se.rioRecvOffset + UInt32.ofNat data.length).toNat =
        (se.rioRecvOffset.toNat + data.length) % 2 ^ 32 := by
      rw [UInt32.toNat_add, UInt32.toNat_ofNat', Nat.add_mod_mod]
    rw [hadd, Accumulator.mod_mod_eq_of_dvd hdvd, Nat.mod_add_mod]
  | makeNewSession _ _ _ | releaseSession _ => trivial

/-- **So over a ring of such a size the kernel writes where the ring expects it**, however much the
sessions receive, as long as each takes a ring that is as `InitPointer` leaves it and its own. -/
theorem postsRight_of_dvd (hdvd : ringMax ∣ 2 ^ 32)
    (hr : (ringSystem cfg ringMax).run (.reserved n) es = some s)
    (hmeets : (ringSystem cfg ringMax).Meets
      (fun s event => TakesResetRing s event ∧ TakesOwnRing s event) (.reserved n) es) :
    PostsRight s := by
  have h := hmeets.invariant (P := Aligned ringMax)
    (fun _ _ _ hs hc h => hs.step hc.1 hc.2 (movesOffset_of_dvd hdvd) h) hr (aligned_reserved n)
  exact h.right

end RIOServer

end DdingGameServer
