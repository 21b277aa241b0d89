import DdingGameServer.Common.LittleEndian
import DdingGameServer.Common.Streaming
/-!
# MultiLanClient — frames in a stream that arrives in pieces

A packet travels to the DB server and back as its length on two bytes and its payload. `Worker`
takes the packets off the receive ring after each completion; its loop keeps the size of the ring
in a variable of its own, which it tests against one constant and decreases by another. The ring
is a queue of bytes that does not fill up.
-/

namespace DdingGameServer

namespace MultiLanClient

variable {ring data payload : List UInt8} {cut payloads : List (List UInt8)} {fuel : ℕ}

/-- `HEADER_SIZE`, taken as `sizeof(WORD)`. -/
def headerSize : ℕ := 2

/-- `sizeof(WORD)`. -/
def sizeofWord : ℕ := 2

/-- The bytes `SendPacketImpl` makes of a payload: its size as a `WORD`, and the payload. -/
def frame (payload : List UInt8) : List UInt8 := toBytes sizeofWord payload.length ++ payload

/-- What `Worker` makes of the ring: the payloads it hands to `OnRecv`, and what it leaves there. -/
structure RecvResult where
  payloads : List (List UInt8)
  rest : List UInt8
  deriving DecidableEq, Repr

/-- The loop of `Worker` behind a receive. A round that goes on takes a header off the ring, so the
size of the ring is fuel enough. -/
def recvRounds : ℕ → ℤ → List UInt8 → RecvResult
  | 0, _, ring => ⟨[], ring⟩
  | fuel + 1, ringBufferRestSize, ring =>
    if ringBufferRestSize ≤ headerSize then ⟨[], ring⟩
    else
      let peeked := ring.take headerSize
      if peeked.length < headerSize then ⟨[], ring⟩
      else
        let payloadLength := ofBytes (peeked.take sizeofWord)
        if ring.length < payloadLength + headerSize then ⟨[], ring⟩
        else
          let ring := ring.drop peeked.length
          let payload := ring.take payloadLength
          let ring := ring.drop payloadLength
          let r := recvRounds fuel (ringBufferRestSize - (payload.length + sizeofWord)) ring
          ⟨payload :: r.payloads, r.rest⟩

/-- A receive completion with some bytes, on what the ring holds. -/
def recvCompleted (ring data : List UInt8) : RecvResult :=
  let ring := ring ++ data
  recvRounds ring.length ring.length ring

/-- The receive completions of one connection. One that transferred nothing is its end. -/
def receive (ring : List UInt8) : List (List UInt8) → RecvResult
  | [] => ⟨[], ring⟩
  | data :: cut =>
    if data = [] then ⟨[], ring⟩
    else
      let r := recvCompleted ring data
      let r' := receive r.rest cut
      ⟨r.payloads ++ r'.payloads, r'.rest⟩

/-! ## The loop as a reader -/

/-- One round of the loop. -/
def readFrame (ring : List UInt8) : Verdict UInt8 (List UInt8) :=
  let payloadLength := ofBytes (ring.take headerSize)
  if ring.length ≤ headerSize ∨ ring.length < payloadLength + headerSize then .wait
  else .item ((ring.drop headerSize).take payloadLength) ((ring.drop headerSize).drop payloadLength)

/-- **The packets of a stream, read off the ring.** -/
def frameReader : Reader UInt8 (List UInt8) where
  read := readFrame
  read_nil := rfl
  shrinks {ring rest payload} h := by
    simp only [readFrame] at h
    split at h
    · exact nomatch h
    · rename_i hframe
      obtain ⟨-, rfl⟩ := Verdict.item.inj h
      simp only [List.length_drop, headerSize] at hframe ⊢
      omega
  steady {ring} more h := by
    simp only [readFrame] at h ⊢
    split at h
    · exact absurd rfl h
    · rename_i hframe
      have hheader : headerSize ≤ ring.length := by omega
      have hpayload : ofBytes (ring.take headerSize) ≤ (ring.drop headerSize).length := by
        rw [List.length_drop]
        omega
      rw [List.take_append_of_le_length hheader, List.drop_append_of_le_length hheader,
        List.take_append_of_le_length hpayload, List.drop_append_of_le_length hpayload,
        if_neg (by rw [List.length_append]; omega), if_neg hframe]
      rfl

/-- **The loop drains the reader**: the size it keeps is the size of the ring. -/
theorem recvRounds_eq_drainUpTo : recvRounds fuel ring.length ring =
    ⟨(frameReader.drainUpTo fuel ring).items, (frameReader.drainUpTo fuel ring).rest⟩ := by
  induction fuel generalizing ring with
  | zero => rfl
  | succ fuel ih =>
    have hread : frameReader.read ring = readFrame ring := rfl
    have hcast : ((ring.length : ℤ) ≤ headerSize) ↔ ring.length ≤ headerSize := by omega
    have htake : (ring.take headerSize).take sizeofWord = ring.take headerSize := by
      rw [List.take_take]
      rfl
    simp only [recvRounds, Reader.drainUpTo, hread, readFrame, hcast, htake]
    by_cases hshort : ring.length ≤ headerSize
    · simp only [hshort, if_true, true_or]
    · have hpeeked : (ring.take headerSize).length = headerSize := by
        rw [List.length_take]
        omega
      rw [hpeeked, if_neg hshort, if_neg (lt_irrefl _)]
      by_cases hpart : ring.length < ofBytes (ring.take headerSize) + headerSize
      · simp only [hpart, if_true, or_true]
      · have hsize : (ring.length : ℤ) - (((ring.drop headerSize).take
            (ofBytes (ring.take headerSize))).length + sizeofWord) =
            (((ring.drop headerSize).drop (ofBytes (ring.take headerSize))).length : ℕ) := by
          simp only [List.length_take, List.length_drop, sizeofWord, headerSize] at hpart ⊢
          omega
        rw [if_neg hpart, if_neg (not_or.mpr ⟨hshort, hpart⟩), hsize, ih]

theorem recvCompleted_eq_drain :
    recvCompleted ring data =
      ⟨(frameReader.drain (ring ++ data)).items, (frameReader.drain (ring ++ data)).rest⟩ :=
  recvRounds_eq_drainUpTo

/-- It never fails: every length is taken as it stands. -/
theorem failed_drain (ring : List UInt8) : (frameReader.drain ring).failed = false := by
  induction ring using Reader.drain_induction (R := frameReader) with
  | wait ring h => rw [Reader.drain_of_wait h]
  | fail ring h =>
    simp only [frameReader, readFrame] at h
    split at h <;> exact nomatch h
  | item ring payload rest h ih => rw [Reader.drain_of_item h, ih]

/-- **Completion after completion drains the stream they bring.** -/
theorem receive_eq_drain (hcut : ∀ data ∈ cut, data ≠ []) (hring : frameReader.read ring = .wait) :
    receive ring cut = ⟨(frameReader.drain (ring ++ cut.flatten)).items,
      (frameReader.drain (ring ++ cut.flatten)).rest⟩ := by
  induction cut generalizing ring with
  | nil => rw [receive, List.flatten_nil, List.append_nil, Reader.drain_of_wait hring]
  | cons data cut ih =>
    have hrest : frameReader.read (frameReader.drain (ring ++ data)).rest = .wait :=
      Reader.read_rest_drain (failed_drain _)
    rw [receive, if_neg (hcut data List.mem_cons_self), recvCompleted_eq_drain]
    dsimp only
    rw [ih (fun data' h => hcut data' (List.mem_cons_of_mem _ h)) hrest, List.flatten_cons,
      ← List.append_assoc, Reader.drain_append (failed_drain (ring ++ data))]

/-! ## The round trip -/

/-- A framed payload is read as it is, whatever follows. -/
theorem readFrame_frame (hpos : 1 ≤ payload.length) (hle : payload.length ≤ 65535)
    (rest : List UInt8) : frameReader.read (frame payload ++ rest) = .item payload rest := by
  have hlen : (toBytes sizeofWord payload.length).length = headerSize := length_toBytes
  have hof : ofBytes (toBytes sizeofWord payload.length) = payload.length := by
    rw [ofBytes_toBytes, Nat.mod_eq_of_lt (by rw [sizeofWord]; omega)]
  have hlong : headerSize < (frame payload ++ rest).length := by
    rw [frame, List.length_append, List.length_append, hlen]
    omega
  have hall : payload.length + headerSize ≤ (frame payload ++ rest).length := by
    rw [frame, List.length_append, List.length_append, hlen]
    omega
  show readFrame (frame payload ++ rest) = _
  simp only [readFrame]
  rw [frame, List.append_assoc, List.take_left' hlen, List.drop_left' hlen, hof, List.take_left,
    List.drop_left, if_neg]
  rw [frame, List.append_assoc] at hlong hall
  omega

/-- **Packets arrive as they were sent, however TCP splits the stream**: `OnRecv` is called with the
payloads in order, each once, and after every completion the ring holds a proper prefix of the next
frame, or nothing where no frame is left. -/
theorem receive_frames (hlen : ∀ payload ∈ payloads, 1 ≤ payload.length ∧ payload.length ≤ 65535)
    (hcut : ∀ data ∈ cut, data ≠ []) (hstream : cut.flatten = payloads.flatMap frame) :
    (receive [] cut).payloads = payloads ∧
      ∀ n, ∃ received waiting, payloads = received ++ waiting ∧
        (receive [] (cut.take n)).payloads = received ∧
        Reader.IsRest frame (receive [] (cut.take n)).rest waiting := by
  have hitem : ∀ payload ∈ payloads, ∀ rest,
      frameReader.read (frame payload ++ rest) = .item payload rest :=
    fun payload h => readFrame_frame (hlen payload h).1 (hlen payload h).2
  refine ⟨?_, fun n => ?_⟩
  · rw [receive_eq_drain hcut frameReader.read_nil, List.nil_append, hstream,
      Reader.drain_frames hitem]
  · have hpre : (cut.take n).flatten <+: payloads.flatMap frame := by
      rw [← hstream]
      exact ⟨(cut.drop n).flatten, by rw [← List.flatten_append, List.take_append_drop]⟩
    obtain ⟨received, waiting, hsplit, hitems, -, hrest⟩ :=
      Reader.drain_of_prefix_frames hitem hpre
    refine ⟨received, waiting, hsplit, ?_⟩
    rw [receive_eq_drain (fun data h => hcut data (List.mem_of_mem_take h)) frameReader.read_nil,
      List.nil_append]
    exact ⟨hitems, hrest⟩

/-- Two packets, cut inside the first header and inside the second payload. -/
theorem receive_frames_two :
    (receive [] [[1], [0, 7, 2, 0, 8], [9]]).payloads = [[7], [8, 9]] := by
  have hstream : ([[1], [0, 7, 2, 0, 8], [9]] : List (List UInt8)).flatten =
      [[7], [8, 9]].flatMap frame := by decide
  exact (receive_frames (by decide) (by decide) hstream).1

end MultiLanClient

end DdingGameServer
