import DdingGameServer.Common.Streaming
import DdingGameServer.RIOServer.Model
/-!
# RIOServer — frames in a stream that arrives in pieces

TCP hands a session's bytes to the server in whatever pieces it likes; each receive completion
adds one piece to the ring, and `RecvCompleted` takes the frames off that are there. The loop is a
reader of the ring (`frameReader`): it waits for a frame that is not complete, and for ever in
front of a wrong header code; it fails on a frame that is too large or cannot be decoded; and it
takes any other frame as its packet. The reader is steady, so packets and errors do not depend on
the pieces.
-/

namespace DdingGameServer

namespace RIOServer

variable {cfg : NetConfig} {ring rest more data payload header packet : List UInt8} {fuel n : ℕ}
  {cut cut' : List (List UInt8)}

/-! ## `RecvCompleted`, with the size it keeps apart from the ring -/

/-- `GetPayloadLength`, on the header that was peeked and the `restSize` of the loop. -/
def peekedPayloadLength (cfg : NetConfig) (buffer : List UInt8) (restSize : ℤ) : ℕ :=
  let code := buffer.getD 0 0
  let payloadLength := (buffer.getD 1 0).toNat + 256 * (buffer.getD 2 0).toNat
  if code ≠ cfg.headerCode then 0
  else if restSize < payloadLength + cfg.headerSize then 0
  else payloadLength

/-- The loop of `RecvCompleted`. -/
def recvRounds (cfg : NetConfig) : ℕ → ℤ → List UInt8 → RecvResult
  | 0, _, ring => ⟨[], ring, false⟩
  | fuel + 1, restSize, ring =>
    if restSize ≤ cfg.headerSize then ⟨[], ring, false⟩
    else
      let buffer := ring.take cfg.headerSize
      let payloadLength := peekedPayloadLength cfg buffer restSize
      if payloadLength = 0 then ⟨[], ring, false⟩
      else if cfg.defaultSize < payloadLength then ⟨[], ring, true⟩
      else
        let ring := ring.drop cfg.headerSize
        let payload := ring.take payloadLength
        let dequeuedSize := payload.length
        let ring := ring.drop payloadLength
        match cfg.decode buffer payload with
        | none => ⟨[], ring, true⟩
        | some packet =>
          let r := recvRounds cfg fuel (restSize - (dequeuedSize + cfg.headerSize)) ring
          ⟨packet :: r.packets, r.rest, r.packetError⟩

/-- `RecvCompleted` on a ring, after the kernel has written `data` behind its content. -/
def recvCompleted (cfg : NetConfig) (ring data : List UInt8) : RecvResult :=
  let ring := ring ++ data
  let restSize := ring.length
  recvRounds cfg restSize restSize ring

/-- The completions of one session: the packets its `OnRecvPacket` is given, and whether one of them
raised `packetError`, which releases the session: what completes later is dropped. -/
def receive (cfg : NetConfig) (ring : List UInt8) : List (List UInt8) → List (List UInt8) × Bool
  | [] => ([], false)
  | data :: cut =>
    let r := recvCompleted cfg ring data
    if r.packetError then (r.packets, true)
    else
      let (packets, packetError) := receive cfg r.rest cut
      (r.packets ++ packets, packetError)

/-- The header fields stand in its first three bytes. -/
theorem getD_append_of_lt {i : ℕ} (h : i < ring.length) :
    (ring ++ more).getD i 0 = ring.getD i 0 := by
  simp [List.getD_eq_getElem?_getD, List.getElem?_append_left h]

theorem getD_take_of_lt {i : ℕ} (h : i < n) : (ring.take n).getD i 0 = ring.getD i 0 := by
  simp [List.getD_eq_getElem?_getD, List.getElem?_take_of_lt h]

/-- Where `restSize` is the size of the ring, the peeked header tells the same as the ring. -/
theorem peekedPayloadLength_eq (h3 : 3 ≤ cfg.headerSize) :
    peekedPayloadLength cfg (ring.take cfg.headerSize) ring.length = getPayloadLength cfg ring := by
  have hcast : ∀ m : ℕ, ((ring.length : ℤ) < (m : ℤ) + cfg.headerSize) ↔
      ring.length < m + cfg.headerSize := by
    intro m
    omega
  simp only [peekedPayloadLength, getPayloadLength, getD_take_of_lt (by omega : 0 < cfg.headerSize),
    getD_take_of_lt (by omega : 1 < cfg.headerSize),
    getD_take_of_lt (by omega : 2 < cfg.headerSize), hcast]

/-- A length that is not 0 is the length of a frame that is all there. -/
theorem getPayloadLength_le (h : getPayloadLength cfg ring ≠ 0) :
    getPayloadLength cfg ring + cfg.headerSize ≤ ring.length := by
  unfold getPayloadLength at h ⊢
  dsimp only at h ⊢
  split at h
  · exact absurd rfl h
  · split at h
    · exact absurd rfl h
    · rename_i hcode hlen
      rw [if_neg hcode, if_neg hlen]
      omega

/-- And it is the length its header tells, behind the right code. -/
theorem getPayloadLength_fields (h : getPayloadLength cfg ring ≠ 0) :
    ring.getD 0 0 = cfg.headerCode ∧
      getPayloadLength cfg ring = (ring.getD 1 0).toNat + 256 * (ring.getD 2 0).toNat := by
  unfold getPayloadLength at h ⊢
  dsimp only at h ⊢
  split at h
  · exact absurd rfl h
  · split at h
    · exact absurd rfl h
    · rename_i hcode hlen
      rw [if_neg hcode, if_neg hlen]
      exact ⟨not_not.mp hcode, rfl⟩

/-- **`restSize` is the size of the ring** in every round, so the loop may as well ask the ring. -/
theorem recvRounds_eq_recvLoop (h3 : 3 ≤ cfg.headerSize) :
    recvRounds cfg fuel ring.length ring = recvLoop cfg fuel ring := by
  induction fuel generalizing ring with
  | zero => rfl
  | succ fuel ih =>
    have hcast : ((ring.length : ℤ) ≤ cfg.headerSize) ↔ ring.length ≤ cfg.headerSize := by omega
    simp only [recvRounds, recvLoop, peekedPayloadLength_eq h3, hcast]
    split
    · rfl
    · split
      · rfl
      · rename_i hlen
        have hle := getPayloadLength_le hlen
        have hsize : (ring.length : ℤ) - (((ring.drop cfg.headerSize).take
            (getPayloadLength cfg ring)).length + cfg.headerSize) =
            (((ring.drop cfg.headerSize).drop (getPayloadLength cfg ring)).length : ℕ) := by
          simp only [List.length_take, List.length_drop]
          omega
        cases cfg.decode (ring.take cfg.headerSize)
            ((ring.drop cfg.headerSize).take (getPayloadLength cfg ring)) with
        | none => rfl
        | some packet => simp only [hsize, ih]

/-- So it is the operation of the workers: what a worker executes is `RecvCompleted`. -/
theorem execOp_recvCompleted (h3 : 3 ≤ cfg.headerSize) (ok : Bool) (replies : List NetBuffer)
    (sid : SessionId) (sh : Shared) (se : RIOSession) (res : IoPostError) :
    let r := recvCompleted cfg se.recvBuffer data
    execOp cfg (.recvCompleted data) ok replies sid sh se res =
      ⟨sh, { se with recvBuffer := r.rest
                     rioRecvOffset := se.rioRecvOffset + UInt32.ofNat data.length },
        r.packets.map .onRecvPacket ++ recvPost ++ [.releaseOnError r.packetError], res⟩ := by
  simp only [recvCompleted, recvRounds_eq_recvLoop h3]
  rfl

/-! ## Frames -/

/-- The frame at the front of the ring, where all of it is there. -/
def takeFrame (cfg : NetConfig) (ring : List UInt8) (payloadLength : ℕ) :
    Verdict UInt8 (List UInt8) :=
  if cfg.defaultSize < payloadLength then .fail
  else
    let payload := (ring.drop cfg.headerSize).take payloadLength
    match cfg.decode (ring.take cfg.headerSize) payload with
    | none => .fail
    | some packet => .item packet ((ring.drop cfg.headerSize).drop payloadLength)

/-- One round of the loop. -/
def readFrame (cfg : NetConfig) (ring : List UInt8) : Verdict UInt8 (List UInt8) :=
  if ring.length ≤ cfg.headerSize ∨ getPayloadLength cfg ring = 0 then .wait
  else takeFrame cfg ring (getPayloadLength cfg ring)

/-- A header and a payload that make a frame of a size the server takes. -/
structure IsFrame (cfg : NetConfig) (header payload : List UInt8) : Prop where
  length_header : header.length = cfg.headerSize
  code : header.getD 0 0 = cfg.headerCode
  length_payload : (header.getD 1 0).toNat + 256 * (header.getD 2 0).toNat = payload.length
  pos : 0 < payload.length
  le : payload.length ≤ cfg.defaultSize

/-- **More bytes do not change the length of a frame that is there.** -/
theorem getPayloadLength_append (h3 : 3 ≤ cfg.headerSize) (hlong : cfg.headerSize < ring.length)
    (h : getPayloadLength cfg ring ≠ 0) :
    getPayloadLength cfg (ring ++ more) = getPayloadLength cfg ring := by
  have hle := getPayloadLength_le h
  unfold getPayloadLength at h hle ⊢
  simp only [getD_append_of_lt (by omega : 0 < ring.length),
    getD_append_of_lt (by omega : 1 < ring.length), getD_append_of_lt (by omega : 2 < ring.length),
    List.length_append] at h hle ⊢
  split at h
  · exact absurd rfl h
  · split at h
    · exact absurd rfl h
    · rename_i hcode hlen
      rw [if_neg hcode, if_neg hlen, if_neg hcode, if_neg (by omega)]

/-- Nor what becomes of it. -/
theorem takeFrame_append (h : n + cfg.headerSize ≤ ring.length) :
    takeFrame cfg (ring ++ more) n = (takeFrame cfg ring n).append more := by
  have hheader : cfg.headerSize ≤ ring.length := by omega
  have hpayload : n ≤ (ring.drop cfg.headerSize).length := by
    rw [List.length_drop]
    omega
  simp only [takeFrame, List.take_append_of_le_length hheader,
    List.drop_append_of_le_length hheader, List.take_append_of_le_length hpayload,
    List.drop_append_of_le_length hpayload]
  split
  · rfl
  · split <;> rfl

/-- A frame takes its header and its payload. -/
theorem length_of_takeFrame (h : takeFrame cfg ring n = .item packet rest) :
    rest.length = ring.length - cfg.headerSize - n := by
  simp only [takeFrame] at h
  split at h
  · cases h
  · split at h
    · cases h
    · obtain ⟨-, rfl⟩ := Verdict.item.inj h
      simp only [List.length_drop]

/-- **The frames of a stream, read off the ring.** -/
def frameReader (cfg : NetConfig) (h3 : 3 ≤ cfg.headerSize) : Reader UInt8 (List UInt8) where
  read := readFrame cfg
  read_nil := if_pos (.inl (Nat.zero_le _))
  shrinks {ring rest packet} h := by
    unfold readFrame at h
    split at h
    · cases h
    · rename_i hframe
      have hle := getPayloadLength_le fun hzero => hframe (.inr hzero)
      have hlen := length_of_takeFrame h
      omega
  steady {ring} more h := by
    unfold readFrame at h ⊢
    split at h
    · exact absurd rfl h
    · rename_i hframe
      obtain ⟨hlong, hlen⟩ := not_or.mp hframe
      have hle := getPayloadLength_le hlen
      have hsame : getPayloadLength cfg (ring ++ more) = getPayloadLength cfg ring :=
        getPayloadLength_append h3 (by omega) hlen
      have hframe' : ¬ ((ring ++ more).length ≤ cfg.headerSize ∨
          getPayloadLength cfg (ring ++ more) = 0) := by
        rw [hsame, List.length_append]
        omega
      rw [if_neg hframe', if_neg hframe, hsame]
      exact takeFrame_append hle

/-- The length of the frame at the front. -/
theorem IsFrame.getPayloadLength_eq (h3 : 3 ≤ cfg.headerSize) (h : IsFrame cfg header payload) :
    getPayloadLength cfg (header ++ (payload ++ rest)) = payload.length := by
  have hlen := h.length_header
  simp only [getPayloadLength, getD_append_of_lt (by omega : 0 < header.length),
    getD_append_of_lt (by omega : 1 < header.length),
    getD_append_of_lt (by omega : 2 < header.length), h.code, h.length_payload, ne_eq,
    not_true_eq_false, if_false, List.length_append]
  rw [if_neg (by omega)]

/-- A frame at the front is decoded. -/
theorem IsFrame.readFrame_eq (h3 : 3 ≤ cfg.headerSize) (h : IsFrame cfg header payload) :
    readFrame cfg (header ++ (payload ++ rest)) =
      match cfg.decode header payload with
      | none => .fail
      | some packet => .item packet rest := by
  have hheader := h.length_header
  have hpos := h.pos
  have hle := h.le
  have hlen : getPayloadLength cfg (header ++ (payload ++ rest)) = payload.length :=
    h.getPayloadLength_eq h3
  rw [readFrame, hlen, if_neg (by simp only [List.length_append]; omega), takeFrame,
    if_neg (by omega), List.take_left' hheader, List.drop_left' hheader]
  simp only [List.take_left, List.drop_left]

/-- **Where all of a frame of a size the server takes is there**, the stream begins with it. -/
theorem exists_isFrame (h3 : 3 ≤ cfg.headerSize) (hlen : getPayloadLength cfg ring ≠ 0)
    (hsize : getPayloadLength cfg ring ≤ cfg.defaultSize) :
    ∃ header payload rest, ring = header ++ (payload ++ rest) ∧ IsFrame cfg header payload := by
  have hle := getPayloadLength_le hlen
  obtain ⟨hcode, hfields⟩ := getPayloadLength_fields hlen
  generalize getPayloadLength cfg ring = n at hlen hsize hle hfields
  have hpayload : ((ring.drop cfg.headerSize).take n).length = n := by
    rw [List.length_take, List.length_drop]
    omega
  refine ⟨ring.take cfg.headerSize, (ring.drop cfg.headerSize).take n,
    (ring.drop cfg.headerSize).drop n, ?_, ?_, ?_, ?_, ?_, ?_⟩
  · rw [List.take_append_drop, List.take_append_drop]
  · rw [List.length_take]
    omega
  · rw [getD_take_of_lt (by omega)]
    exact hcode
  · rw [getD_take_of_lt (by omega), getD_take_of_lt (by omega), hpayload]
    exact hfields.symm
  · omega
  · omega

/-- **What a reader of frames takes**: a header and a payload that make a frame and that `Decode`
accepts, with the rest of the stream behind them. -/
theorem readFrame_eq_item_iff (h3 : 3 ≤ cfg.headerSize) : readFrame cfg ring = .item packet rest ↔
    ∃ header payload, ring = header ++ (payload ++ rest) ∧ IsFrame cfg header payload ∧
      cfg.decode header payload = some packet := by
  constructor
  · intro h
    by_cases hwait : ring.length ≤ cfg.headerSize ∨ getPayloadLength cfg ring = 0
    · rw [readFrame, if_pos hwait] at h
      cases h
    · obtain ⟨-, hlen⟩ := not_or.mp hwait
      by_cases hsize : cfg.defaultSize < getPayloadLength cfg ring
      · rw [readFrame, if_neg hwait, takeFrame, if_pos hsize] at h
        cases h
      · obtain ⟨header, payload, rest', rfl, hframe⟩ := exists_isFrame h3 hlen (by omega)
        rw [hframe.readFrame_eq h3] at h
        cases hdecode : cfg.decode header payload with
        | none =>
          rw [hdecode] at h
          cases h
        | some packet' =>
          rw [hdecode] at h
          obtain ⟨rfl, rfl⟩ := Verdict.item.inj h
          exact ⟨header, payload, rfl, hframe, hdecode⟩
  · rintro ⟨header, payload, rfl, hframe, hdecode⟩
    rw [hframe.readFrame_eq h3, hdecode]

/-! ## The loop as a reader -/

/-- The loop drains the reader. -/
theorem recvLoop_eq_drainUpTo (h3 : 3 ≤ cfg.headerSize) (fuel : ℕ) (ring : List UInt8) :
    (recvLoop cfg fuel ring).packets = ((frameReader cfg h3).drainUpTo fuel ring).items ∧
      (recvLoop cfg fuel ring).packetError = ((frameReader cfg h3).drainUpTo fuel ring).failed ∧
      ((recvLoop cfg fuel ring).packetError = false →
        (recvLoop cfg fuel ring).rest = ((frameReader cfg h3).drainUpTo fuel ring).rest) := by
  induction fuel generalizing ring with
  | zero => exact ⟨rfl, rfl, fun _ => rfl⟩
  | succ fuel ih =>
    have hread : (frameReader cfg h3).read ring = readFrame cfg ring := rfl
    by_cases hwait : ring.length ≤ cfg.headerSize ∨ getPayloadLength cfg ring = 0
    · have hloop : recvLoop cfg (fuel + 1) ring = ⟨[], ring, false⟩ := by
        rcases hwait with hshort | hzero
        · simp [recvLoop, hshort]
        · simp [recvLoop, hzero]
      simp [hloop, Reader.drainUpTo, hread, readFrame, hwait]
    · obtain ⟨hlong, hlen⟩ := not_or.mp hwait
      simp only [recvLoop, Reader.drainUpTo, hread, readFrame, takeFrame, hlong, hlen, if_false]
      by_cases hsize : cfg.defaultSize < getPayloadLength cfg ring
      · simp [hsize]
      · simp only [hsize, if_false]
        cases cfg.decode (ring.take cfg.headerSize)
            ((ring.drop cfg.headerSize).take (getPayloadLength cfg ring)) with
        | none => simp
        | some packet =>
          obtain ⟨hitems, hfailed, hrest⟩ :=
            ih ((ring.drop cfg.headerSize).drop (getPayloadLength cfg ring))
          exact ⟨congrArg (packet :: ·) hitems, hfailed, hrest⟩

/-- And `RecvCompleted` drains the ring with the new data. -/
theorem recvCompleted_eq_drain (h3 : 3 ≤ cfg.headerSize) (ring data : List UInt8) :
    (recvCompleted cfg ring data).packets = ((frameReader cfg h3).drain (ring ++ data)).items ∧
      (recvCompleted cfg ring data).packetError =
        ((frameReader cfg h3).drain (ring ++ data)).failed ∧
      ((recvCompleted cfg ring data).packetError = false →
        (recvCompleted cfg ring data).rest = ((frameReader cfg h3).drain (ring ++ data)).rest) := by
  have h := recvLoop_eq_drainUpTo h3 (ring ++ data).length (ring ++ data)
  rwa [← recvRounds_eq_recvLoop h3] at h

/-- **The completions of a session feed the reader.** -/
theorem receive_eq_feed (h3 : 3 ≤ cfg.headerSize) :
    receive cfg ring cut = (frameReader cfg h3).feed ring cut := by
  induction cut generalizing ring with
  | nil => rfl
  | cons data cut ih =>
    obtain ⟨hitems, hfailed, hrest⟩ := recvCompleted_eq_drain h3 ring data
    simp only [receive, Reader.feed, hitems, hfailed]
    cases hf : ((frameReader cfg h3).drain (ring ++ data)).failed with
    | true => rfl
    | false =>
      rw [hfailed] at hrest
      rw [hrest hf, ih]

/-- **Receive framing does not depend on how TCP splits the stream**: two ways of cutting a stream
give the same packets and the same error, namely what one completion with the whole stream gives,
and that is the one way the stream parses into frames. -/
theorem receive_eq_receive (h3 : 3 ≤ cfg.headerSize) (h : cut.flatten = cut'.flatten) :
    receive cfg [] cut = receive cfg [] cut' ∧
      receive cfg [] cut = ((recvCompleted cfg [] cut.flatten).packets,
        (recvCompleted cfg [] cut.flatten).packetError) ∧
      (frameReader cfg h3).Parses cut.flatten (receive cfg [] cut).1 (receive cfg [] cut).2 := by
  obtain ⟨hitems, hfailed, -⟩ := recvCompleted_eq_drain h3 [] cut.flatten
  rw [receive_eq_feed h3, receive_eq_feed h3, hitems, hfailed, List.nil_append]
  exact ⟨Reader.feed_eq_feed h, Reader.feed_eq_drain (frameReader cfg h3).read_nil,
    Reader.parses_feed cut⟩

/-- Two frames and the start of a third, cut inside the first header, inside the second payload and
not at all. -/
theorem receive_eq_receive_twoFrames :
    receive checksumConfig []
        [[119], [1, 0, 0, 7, 7, 119, 2, 0, 0, 3, 1], [2, 119, 5]] =
      receive checksumConfig [] [[119, 1, 0, 0, 7, 7, 119, 2, 0, 0, 3, 1, 2, 119, 5]] ∧
    receive checksumConfig [] [[119, 1, 0, 0, 7, 7, 119, 2, 0, 0, 3, 1, 2, 119, 5]] =
      ([[7], [1, 2]], false) :=
  ⟨(receive_eq_receive (by decide) (by decide)).1, by decide +kernel⟩

end RIOServer

end DdingGameServer
