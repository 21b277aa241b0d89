import DdingGameServer.RIOServer.SendStream
/-!
# RIOServer — every packet goes into one stream

Packets are put into a session's queue, and `MakeSendStream` takes them from there, in any order of
the two. What the streams have so far, the packet that was kept and the queue are the packets that
were enqueued, as long as each call copies its first packet into the stream and finds no room for a
second (`keepsOrder_iff`).
-/

namespace DdingGameServer

namespace RIOServer

/-- The send side of a session. -/
structure StreamState where
  item : SendItem
  crashed : Bool
  /-- History: the packets that were enqueued, -/
  enqueued : List NetBuffer
  /-- and those that are in a stream. -/
  copied : List NetBuffer

inductive StreamEvent
  /-- The `Enqueue` of `SendPacket`. -/
  | enqueue (packet : NetBuffer)
  | makeSendStream
  deriving DecidableEq, Repr

/-- The packets a call of `MakeSendStream` puts into the stream. -/
def SendStream.landed (st : SendStream) : List NetBuffer :=
  (st.copies.filter fun c => decide c.Lands).map MemcpyS.packet

/-- A session with nothing to send. -/
def StreamState.start (memory : ℕ → UInt8) : StreamState where
  item := ⟨[], none, memory⟩
  crashed := false
  enqueued := []
  copied := []

/-- **The queue and the streams of a session.** -/
def sendStreams : System StreamState StreamEvent where
  Init s := ∃ memory, s = .start memory
  step s e :=
    if s.crashed then none else
      match e with
      | .enqueue packet => some { s with
          item := { s.item with sendQueue := s.item.sendQueue ++ [packet] }
          enqueued := s.enqueued ++ [packet] }
      | .makeSendStream =>
        let st := (makeSendStream s.item).2
        some { s with item := st.item, crashed := st.crashed, copied := s.copied ++ st.landed }

/-- **No packet is lost, duplicated or reordered.** -/
def InOrder (s : StreamState) : Prop := s.copied ++ s.item.pending = s.enqueued

/-- **A step keeps the order**, and a call of `MakeSendStream` that finds something to send copies at
least one packet. -/
def KeepsOrder (s : StreamState) (e : StreamEvent) : Prop :=
  ∀ s', sendStreams.step s e = some s' → InOrder s' ∧
    (e = .makeSendStream → s.item.pending ≠ [] → s.copied.length < s'.copied.length)

/-- A call of `MakeSendStream` copies one packet: `memcpy_s` takes the first, and the second, if
there is one, does not fit. -/
def StreamsFirst (s : StreamState) : StreamEvent → Prop
  | .enqueue _ => True
  | .makeSendStream => FirstChecked s.item ∧ SecondKept s.item

/-- A packet that is enqueued is `Sized`. -/
def StreamEvent.Fits : StreamEvent → Prop
  | .enqueue packet => Sized packet
  | .makeSendStream => True

instance (s : StreamState) (e : StreamEvent) : Decidable (StreamsFirst s e) :=
  match e with
  | .enqueue _ => .isTrue trivial
  | .makeSendStream => inferInstanceAs (Decidable (FirstChecked s.item ∧ SecondKept s.item))

instance (e : StreamEvent) : Decidable e.Fits :=
  match e with
  | .enqueue packet => inferInstanceAs (Decidable (Sized packet))
  | .makeSendStream => .isTrue trivial

variable {s s' : StreamState} {e : StreamEvent} {es : List StreamEvent} {memory : ℕ → UInt8}
  {packet : NetBuffer} {item : SendItem}

/-! ## One step -/

/-- The invariant: the packets are in order and of the sizes they are for. -/
structure Streaming (s : StreamState) : Prop where
  inOrder : InOrder s
  sized : ∀ packet ∈ s.item.pending, Sized packet
  crashed : s.crashed = false

theorem streaming_start : Streaming (.start memory) :=
  ⟨rfl, fun _ hpacket => absurd hpacket List.not_mem_nil, rfl⟩

theorem step_enqueue (h : s.crashed = false) : sendStreams.step s (.enqueue packet) =
    some { s with
      item := { s.item with sendQueue := s.item.sendQueue ++ [packet] }
      enqueued := s.enqueued ++ [packet] } := by
  simp only [sendStreams, h, Bool.false_eq_true, if_false]

theorem step_makeSendStream (h : s.crashed = false) : sendStreams.step s .makeSendStream =
    some { s with
      item := (makeSendStream s.item).2.item
      crashed := (makeSendStream s.item).2.crashed
      copied := s.copied ++ (makeSendStream s.item).2.landed } := by
  simp only [sendStreams, h, Bool.false_eq_true, if_false]

/-- All that is copied is in the stream exactly where that accounts for it. -/
theorem landed_eq_iff {st : SendStream} :
    st.landed = st.copies.map MemcpyS.packet ↔ ∀ c ∈ st.copies, c.Lands := by
  constructor
  · intro h
    have hlength := congrArg List.length h
    simp only [SendStream.landed, List.length_map] at hlength
    have hall := List.length_filter_eq_length_iff.mp hlength
    exact fun c hc => of_decide_eq_true (hall c hc)
  · intro h
    rw [SendStream.landed, List.filter_eq_self.mpr fun c hc => decide_eq_true (h c hc)]

/-- **What a call does to the order**: it is kept exactly where all that is copied lands. -/
theorem landed_append_pending_iff (hsized : ∀ packet ∈ item.pending, Sized packet) :
    (makeSendStream item).2.landed ++ (makeSendStream item).2.item.pending = item.pending ↔
      ∀ c ∈ (makeSendStream item).2.copies, c.Lands := by
  have hsources := sources_makeSendStream hsized
  constructor
  · intro h
    exact landed_eq_iff.mp (List.append_cancel_right (h.trans hsources.symm))
  · intro h
    rw [landed_eq_iff.mpr h, hsources]

/-- **A step keeps the order exactly where it copies one packet.** -/
theorem keepsOrder_iff_streamsFirst (hs : Streaming s) :
    KeepsOrder s e ↔ StreamsFirst s e := by
  cases e with
  | enqueue packet =>
    refine iff_of_true (fun s' hstep => ⟨?_, fun he => by cases he⟩) trivial
    obtain rfl := Option.some.inj ((step_enqueue hs.crashed).symm.trans hstep)
    show s.copied ++ (s.item.reservedBuffer.toList ++ (s.item.sendQueue ++ [packet])) = _
    rw [← List.append_assoc s.item.reservedBuffer.toList, ← List.append_assoc, ← hs.inOrder]
    rfl
  | makeSendStream =>
    show KeepsOrder s .makeSendStream ↔ FirstChecked s.item ∧ SecondKept s.item
    rw [← lands_makeSendStream_iff hs.sized]
    constructor
    · intro h
      obtain ⟨horder, -⟩ := h _ (step_makeSendStream hs.crashed)
      have heq : s.copied ++ (makeSendStream s.item).2.landed ++
          (makeSendStream s.item).2.item.pending = s.copied ++ s.item.pending :=
        horder.trans hs.inOrder.symm
      rw [List.append_assoc] at heq
      exact (landed_append_pending_iff hs.sized).mp (List.append_cancel_left heq)
    · intro hlands s' hstep
      obtain rfl := Option.some.inj ((step_makeSendStream hs.crashed).symm.trans hstep)
      refine ⟨?_, fun _ hpending => ?_⟩
      · show s.copied ++ (makeSendStream s.item).2.landed ++
          (makeSendStream s.item).2.item.pending = s.enqueued
        rw [List.append_assoc, (landed_append_pending_iff hs.sized).mpr hlands]
        exact hs.inOrder
      · have hcopies := copies_ne_nil hs.sized hlands hpending
        have hpos := List.length_pos_of_ne_nil hcopies
        show s.copied.length < (s.copied ++ (makeSendStream s.item).2.landed).length
        rw [List.length_append, landed_eq_iff.mpr hlands, List.length_map]
        omega

/-- **A step that copies one packet goes on streaming.** -/
theorem Streaming.step (hs : Streaming s) (hfits : e.Fits) (hfirst : StreamsFirst s e)
    (hstep : sendStreams.step s e = some s') : Streaming s' := by
  have horder := (((keepsOrder_iff_streamsFirst hs).mpr hfirst) s' hstep).1
  cases e with
  | enqueue packet =>
    obtain rfl := Option.some.inj ((step_enqueue hs.crashed).symm.trans hstep)
    refine ⟨horder, fun b hb => ?_, hs.crashed⟩
    have hb' : b ∈ s.item.pending ++ [packet] := by
      rw [SendItem.pending, List.append_assoc]
      exact hb
    rcases List.mem_append.mp hb' with hb' | hb'
    · exact hs.sized b hb'
    · obtain rfl := List.mem_singleton.mp hb'
      exact hfits
  | makeSendStream =>
    have hlands := (lands_makeSendStream_iff hs.sized).mpr hfirst
    obtain rfl := Option.some.inj ((step_makeSendStream hs.crashed).symm.trans hstep)
    refine ⟨horder, fun b hb => hs.sized b ?_, crashed_makeSendStream hs.sized hlands⟩
    rw [← (landed_append_pending_iff hs.sized).mpr hlands]
    exact List.mem_append_right _ hb

/-! ## Over a run -/

/-- **No packet is lost, duplicated or reordered between the queue and the streams exactly where each
call copies one packet**, in every run of enqueued packets and calls of `MakeSendStream`. -/
theorem keepsOrder_iff (hsized : ∀ packet, .enqueue packet ∈ es → Sized packet) :
    sendStreams.Meets KeepsOrder (.start memory) es ↔
      sendStreams.Meets StreamsFirst (.start memory) es := by
  have hfits : sendStreams.Meets (fun _ e => e.Fits) (.start memory) es := by
    refine System.meets_of_forall fun e he => ?_
    cases e with
    | enqueue packet => exact hsized packet he
    | makeSendStream => trivial
  constructor
  · intro h
    refine (h.and hfits).of_invariant (P := Streaming) (fun s e s' hs hc hstep => ?_)
      (fun s e hs hc => (keepsOrder_iff_streamsFirst hs).mp hc.1) streaming_start
    exact hs.step hc.2 ((keepsOrder_iff_streamsFirst hs).mp hc.1) hstep
  · intro h
    exact (h.and hfits).of_invariant (P := Streaming)
      (fun s e s' hs hc hstep => hs.step hc.2 hc.1 hstep)
      (fun s e hs hc => (keepsOrder_iff_streamsFirst hs).mpr hc.1) streaming_start

/-- Two packets that do not fit into one stream, and a third: each goes into a stream of its own. -/
theorem keepsOrder_kept :
    sendStreams.Meets KeepsOrder (.start fun _ => 0)
      [.enqueue (List.replicate 9000 1), .enqueue (List.replicate 9000 2), .makeSendStream,
        .makeSendStream, .enqueue [3], .makeSendStream] ∧
    ∃ s, sendStreams.run (.start fun _ => 0)
        [.enqueue (List.replicate 9000 1), .enqueue (List.replicate 9000 2), .makeSendStream,
          .makeSendStream, .enqueue [3], .makeSendStream] = some s ∧
      s.copied.map List.head? = [some 1, some 2, some 3] := by
  obtain ⟨s, hmeets, hr, hf⟩ := System.exists_run sendStreams
    [.enqueue (List.replicate 9000 1), .enqueue (List.replicate 9000 2), .makeSendStream,
      .makeSendStream, .enqueue [3], .makeSendStream]
    (c := fun s e => decide (StreamsFirst s e ∧ e.Fits))
    (f := fun s => decide (s.copied.map List.head? = [some 1, some 2, some 3]))
    (s := .start fun _ => 0) (by decide +kernel)
  simp only [decide_eq_true_eq] at hmeets hf
  refine ⟨(keepsOrder_iff fun packet hpacket => ?_).mpr (hmeets.mono fun _ _ h => h.1), s, hr, hf⟩
  have hfits : ∀ e ∈ _, StreamEvent.Fits e :=
    (System.meets_forall_iff hr).mp (hmeets.mono fun _ _ h => h.2)
  exact hfits _ hpacket

/-- **One packet of 6000 bytes**: `memcpy_s` is told that 4384 bytes are left, and ends the
process. -/
theorem not_keepsOrder_6000 : ¬ sendStreams.Meets KeepsOrder (.start fun _ => 0)
    [.enqueue (List.replicate 6000 0), .makeSendStream] := by
  intro h
  have hsized : (StreamEvent.enqueue (List.replicate 6000 0)).Fits := by decide +kernel
  have hstart : Streaming (.start fun _ => 0) := streaming_start
  have hfirst : StreamsFirst (.start fun _ => 0) (.enqueue (List.replicate 6000 0)) := trivial
  have hnext := h.2 _ (step_enqueue rfl)
  have hstreams := (keepsOrder_iff_streamsFirst
    (hstart.step hsized hfirst (step_enqueue rfl))).mp hnext.1
  have hcheck := hstreams.1 rfl (List.replicate 6000 0) rfl
  rw [List.length_replicate] at hcheck
  exact absurd hcheck (by decide)

end RIOServer

end DdingGameServer
