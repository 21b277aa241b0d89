import DdingGameServer.RIOServer.Framing
/-!
# RIOServer — streams that are not frames

`GetPayloadLength` answers 0 for a wrong header code, for a length of 0 and for a frame that is not
complete, and `RecvCompleted` takes each of them for the last: it posts the next receive and waits.
Only a frame that is complete and too long, or that `Decode` refuses, releases the session. So a
malformed stream is noticed exactly in the shapes of `Detected`; in front of a wrong code or a zero
length the session waits for ever (`receive_of_blocked`).
-/

namespace DdingGameServer

namespace RIOServer

variable {cfg : NetConfig} {ring data rest more header payload packet : List UInt8}
  {cut : List (List UInt8)}

/-- The payload length a header announces. -/
def announcedLength (ring : List UInt8) : ℕ := (ring.getD 1 0).toNat + 256 * (ring.getD 2 0).toNat

/-- A proper prefix of a frame that begins with the header code and announces a payload the server
takes. -/
def FramePart (cfg : NetConfig) (rest : List UInt8) : Prop :=
  ∃ header payload, IsFrame cfg header payload ∧ rest <+: header ++ payload ∧
    rest ≠ header ++ payload

/-- A frame that is complete and too long. -/
structure Oversized (cfg : NetConfig) (ring : List UInt8) : Prop where
  code : ring.getD 0 0 = cfg.headerCode
  lt : cfg.defaultSize < announcedLength ring
  complete : announcedLength ring + cfg.headerSize ≤ ring.length

/-- **A completion does not hang its session**: it raises `packetError`, which releases it, or leaves
no more than a part of a frame. -/
def Settles (cfg : NetConfig) (r : RecvResult) : Prop :=
  r.packetError = true ∨ FramePart cfg r.rest

/-- **The streams in which `RecvCompleted` notices what is malformed**: behind any number of frames
there is a part of a frame, a complete frame that is too long, or one that `Decode` refuses. -/
inductive Detected (cfg : NetConfig) : List UInt8 → Prop
  | part {ring : List UInt8} : FramePart cfg ring → Detected cfg ring
  | oversized {ring : List UInt8} : Oversized cfg ring → Detected cfg ring
  | refused {header payload more : List UInt8} : IsFrame cfg header payload →
      cfg.decode header payload = none → Detected cfg (header ++ (payload ++ more))
  | frame {header payload packet more : List UInt8} : IsFrame cfg header payload →
      cfg.decode header payload = some packet → Detected cfg more →
      Detected cfg (header ++ (payload ++ more))

/-! ## What the reader makes of each -/

/-- The bytes of a header are those of the stream it begins. -/
theorem getD_eq_of_part {i : ℕ} (h : ring <+: more) (hi : i < ring.length) :
    ring.getD i 0 = more.getD i 0 := by
  obtain ⟨rest, rfl⟩ := h
  exact (getD_append_of_lt hi).symm

/-- A part of a frame is waited for. -/
theorem FramePart.readFrame_eq (h3 : 3 ≤ cfg.headerSize) (h : FramePart cfg ring) :
    readFrame cfg ring = .wait := by
  obtain ⟨header, payload, hframe, hpart, hne⟩ := h
  have hlen := hframe.length_header
  have hshort : ring.length < header.length + payload.length := by
    rw [← List.length_append]
    exact lt_of_le_of_ne hpart.length_le fun heq => hne (hpart.eq_of_length heq)
  refine if_pos ?_
  by_cases hheader : ring.length ≤ cfg.headerSize
  · exact .inl hheader
  · -- the header is there, and the length it announces is not
    right
    have hfields := hframe.length_payload
    have h1 : ring.getD 1 0 = header.getD 1 0 :=
      (getD_eq_of_part hpart (by omega)).trans (getD_append_of_lt (by omega))
    have h2 : ring.getD 2 0 = header.getD 2 0 :=
      (getD_eq_of_part hpart (by omega)).trans (getD_append_of_lt (by omega))
    simp only [getPayloadLength, h1, h2, hfields]
    split
    · rfl
    · exact if_pos (by omega)

/-- It begins with the header code. -/
theorem FramePart.code (h3 : 3 ≤ cfg.headerSize) (h : FramePart cfg ring) (hpos : 0 < ring.length) :
    ring.getD 0 0 = cfg.headerCode := by
  obtain ⟨header, payload, hframe, hpart, -⟩ := h
  have hlen := hframe.length_header
  rw [getD_eq_of_part hpart hpos, getD_append_of_lt (by omega), hframe.code]

/-- **What a reader of frames fails on**: a complete frame that is too long, or one that `Decode`
refuses. -/
theorem readFrame_eq_fail_iff (h3 : 3 ≤ cfg.headerSize) : readFrame cfg ring = .fail ↔
    Oversized cfg ring ∨ ∃ header payload more, ring = header ++ (payload ++ more) ∧
      IsFrame cfg header payload ∧ cfg.decode header payload = none := by
  constructor
  · intro h
    by_cases hwait : ring.length ≤ cfg.headerSize ∨ getPayloadLength cfg ring = 0
    · rw [readFrame, if_pos hwait] at h
      cases h
    · obtain ⟨-, hlen⟩ := not_or.mp hwait
      obtain ⟨hcode, hfields⟩ := getPayloadLength_fields hlen
      have hle := getPayloadLength_le hlen
      by_cases hsize : cfg.defaultSize < getPayloadLength cfg ring
      · rw [hfields] at hsize hle
        exact .inl ⟨hcode, hsize, hle⟩
      · obtain ⟨header, payload, more, rfl, hframe⟩ := exists_isFrame h3 hlen (by omega)
        rw [hframe.readFrame_eq h3] at h
        cases hdecode : cfg.decode header payload with
        | none => exact .inr ⟨header, payload, more, rfl, hframe, hdecode⟩
        | some packet =>
          rw [hdecode] at h
          cases h
  · rintro (hover | ⟨header, payload, more, rfl, hframe, hdecode⟩)
    · have hlt := hover.lt
      have hcomplete := hover.complete
      have hlen : getPayloadLength cfg ring = announcedLength ring := by
        simp only [getPayloadLength, hover.code, ne_eq, not_true_eq_false, if_false]
        exact if_neg (Nat.not_lt.mpr hcomplete)
      rw [readFrame, hlen, if_neg (by omega), takeFrame, if_pos hlt]
    · rw [hframe.readFrame_eq h3, hdecode]

/-! ## What a completion leaves -/

/-- **What is detected of a stream** is detected behind its first frame, -/
theorem detected_of_readFrame_item (h3 : 3 ≤ cfg.headerSize)
    (h : readFrame cfg ring = .item packet rest) : Detected cfg ring ↔ Detected cfg rest := by
  constructor
  · intro hdetected
    cases hdetected with
    | part hpart =>
      rw [hpart.readFrame_eq h3] at h
      cases h
    | oversized hover =>
      rw [(readFrame_eq_fail_iff h3).mpr (.inl hover)] at h
      cases h
    | refused hframe hdecode =>
      rw [hframe.readFrame_eq h3, hdecode] at h
      cases h
    | frame hframe hdecode hmore =>
      rw [hframe.readFrame_eq h3, hdecode] at h
      obtain ⟨-, rfl⟩ := Verdict.item.inj h
      exact hmore
  · intro hrest
    obtain ⟨header, payload, rfl, hframe, hdecode⟩ := (readFrame_eq_item_iff h3).mp h
    exact .frame hframe hdecode hrest

/-- and where the reader waits, only a part of a frame is. -/
theorem detected_of_readFrame_wait (h3 : 3 ≤ cfg.headerSize) (h : readFrame cfg ring = .wait) :
    Detected cfg ring ↔ FramePart cfg ring := by
  refine ⟨fun hdetected => ?_, .part⟩
  cases hdetected with
  | part hpart => exact hpart
  | oversized hover =>
    rw [(readFrame_eq_fail_iff h3).mpr (.inl hover)] at h
    cases h
  | refused hframe hdecode | frame hframe hdecode _ =>
    rw [hframe.readFrame_eq h3, hdecode] at h
    cases h

/-- **What the reader leaves of a stream**, along the frames it takes. -/
theorem settles_drain_iff (h3 : 3 ≤ cfg.headerSize) (ring : List UInt8) :
    ((frameReader cfg h3).drain ring).failed = true ∨
        FramePart cfg ((frameReader cfg h3).drain ring).rest ↔
      Detected cfg ring := by
  induction ring using Reader.drain_induction (R := frameReader cfg h3) with
  | wait ring h =>
    rw [Reader.drain_of_wait h, detected_of_readFrame_wait h3 h]
    exact or_iff_right Bool.false_ne_true
  | fail ring h =>
    rw [Reader.drain_of_fail h]
    refine iff_of_true (.inl rfl) ?_
    rcases (readFrame_eq_fail_iff h3).mp h with hover | ⟨header, payload, more, rfl, hframe, hdecode⟩
    · exact .oversized hover
    · exact .refused hframe hdecode
  | item ring packet rest h ih =>
    rw [Reader.drain_of_item h, detected_of_readFrame_item h3 h]
    exact ih

/-- **A completion does not hang its session exactly in the streams in which what is malformed is
noticed**, for every content of the ring and every completion. -/
theorem settles_iff (h3 : 3 ≤ cfg.headerSize) :
    Settles cfg (recvCompleted cfg ring data) ↔ Detected cfg (ring ++ data) := by
  obtain ⟨-, hfailed, hrest⟩ := recvCompleted_eq_drain h3 ring data
  rw [← settles_drain_iff h3, Settles, hfailed]
  cases hf : ((frameReader cfg h3).drain (ring ++ data)).failed with
  | true => simp
  | false => rw [hrest (hfailed.trans hf)]

/-- A frame with a wrong checksum that comes in two parts is refused. -/
theorem settles_wrongChecksum : Detected checksumConfig ([119, 1, 0] ++ [0, 9, 7]) ∧
    (recvCompleted checksumConfig [119, 1, 0] [0, 9, 7]).packetError = true :=
  ⟨(settles_iff (by decide)).mp (.inl (by decide)), by decide⟩

/-- **A frame with a wrong header code** stays in the ring, and nothing is released. -/
theorem not_settles_wrongCode :
    ¬ Settles checksumConfig (recvCompleted checksumConfig [] [118, 1, 0, 0, 7, 7]) := by
  rintro (herror | hpart)
  · exact absurd herror (by decide)
  · exact absurd (hpart.code (by decide) (by decide)) (by decide)

/-! ## A session that hangs -/

/-- No more bytes will make a frame of this: the code is wrong, or the length is 0. -/
def Blocked (cfg : NetConfig) (ring : List UInt8) : Prop :=
  0 < ring.length ∧ ring.getD 0 0 ≠ cfg.headerCode ∨ 3 ≤ ring.length ∧ announcedLength ring = 0

theorem Blocked.append (h : Blocked cfg ring) (more : List UInt8) :
    Blocked cfg (ring ++ more) := by
  rcases h with ⟨hpos, hcode⟩ | ⟨hlong, hzero⟩
  · refine .inl ⟨by rw [List.length_append]; omega, ?_⟩
    rwa [getD_append_of_lt hpos]
  · refine .inr ⟨by rw [List.length_append]; omega, ?_⟩
    rwa [announcedLength, getD_append_of_lt (by omega), getD_append_of_lt (by omega)]

theorem Blocked.getPayloadLength_eq (h : Blocked cfg ring) : getPayloadLength cfg ring = 0 := by
  rw [getPayloadLength]
  split
  · rfl
  · rename_i hcode
    rcases h with ⟨-, hwrong⟩ | ⟨-, hzero⟩
    · exact absurd hwrong hcode
    · split
      · rfl
      · exact hzero

/-- **In front of a wrong code or a length of 0 a session waits for ever**: whatever completes, it is
handed nothing and is not released. -/
theorem receive_of_blocked (h3 : 3 ≤ cfg.headerSize) (h : Blocked cfg ring)
    (cut : List (List UInt8)) : receive cfg ring cut = ([], false) := by
  have hwait : (frameReader cfg h3).read (ring ++ cut.flatten) = .wait :=
    if_pos (.inr (h.append _).getPayloadLength_eq)
  have hread : (frameReader cfg h3).read ring = .wait := if_pos (.inr h.getPayloadLength_eq)
  rw [receive_eq_feed h3, Reader.feed_eq_drain hread, Reader.drain_of_wait hwait]

end RIOServer

end DdingGameServer
