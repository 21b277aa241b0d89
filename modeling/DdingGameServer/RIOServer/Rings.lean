import DdingGameServer.Common.Tally
import DdingGameServer.RIOServer.Framing
/-!
# RIOServer — the receive rings over the life of many sessions

A session takes its receive ring from `recvRIOBufferPool` and gives it back when it is released;
the pool runs no constructor and no destructor in between, so the next session finds the ring as
the last one left it. Its `rioRecvOffset` starts at 0 all the same. The kernel writes where
`RecvPost` posts, which is where the ring expects the bytes only if the ring was taken as
`InitPointer` leaves it.

One event is a whole handler: `MakeNewSession` with its first `RecvPost`, `RecvCompleted` with the
`RecvPost` at its end, `ReleaseSession`, which may come twice for a session. The size of a ring,
`DEFAULT_RINGBUFFER_MAX`, is a parameter, and the ring never fills up.
-/

namespace DdingGameServer

namespace RIOServer

/-- A `RecvRIOBuffer`: its write position, and the bytes between its read and write positions. -/
structure RecvRIOBuffer where
  writePos : ℕ
  unread : List UInt8
  deriving DecidableEq, Repr

/-- A `RIOSession`, as far as `RecvPost` reads it. A ring is its place among all rings. -/
structure ReceivingSession where
  recvBuffer : ℕ
  rioRecvOffset : UInt32
  /-- It is in `sessionMap`. -/
  inMap : Bool
  /-- The kernel has a receive of it. -/
  posted : Bool
  deriving DecidableEq, Repr

/-- A receive that was posted: its `Offset`, whether it is its session's first, and the ring as it
was then. -/
structure PostedReceive where
  offset : ℕ
  first : Bool
  ring : RecvRIOBuffer
  deriving DecidableEq, Repr

/-- The rings, their pool and the sessions. -/
structure RingState where
  rings : List RecvRIOBuffer
  recvRIOBufferPool : List ℕ
  sessions : List ReceivingSession
  /-- History. -/
  posts : List PostedReceive
  deriving DecidableEq, Repr

/-- The handlers. `ok` is the kernel's answer to `RIOReceive`, `rq` the one to
`RIOCreateRequestQueue`; the pool hands out any ring it has, here its `k`-th. -/
inductive RingEvent
  | makeNewSession (k : ℕ) (rq ok : Bool)
  | recvCompleted (sid : ℕ) (data : List UInt8) (ok : Bool)
  | releaseSession (sid : ℕ)
  deriving DecidableEq, Repr

variable {cfg : NetConfig} {ringMax : ℕ}

/-- The receive `RecvPost` posts. -/
def postedReceive (ringMax : ℕ) (first : Bool) (se : ReceivingSession) (ring : RecvRIOBuffer) :
    PostedReceive where
  offset := se.rioRecvOffset.toNat % ringMax
  first := first
  ring := ring

/-- `RecvPost` at the end of a handler: what it adds to the posted receives. -/
def recvPosts (ringMax : ℕ) (ok first : Bool) (se : ReceivingSession) (ring : RecvRIOBuffer) :
    List PostedReceive :=
  if ok then [postedReceive ringMax first se ring] else []

namespace RingState

/-- `MakeNewSession`, where `InitSession` takes the `k`-th ring of the pool. -/
def makeNewSession (ringMax : ℕ) (s : RingState) (k : ℕ) (rq ok : Bool) : Option RingState :=
  s.recvRIOBufferPool[k]?.bind fun recvBuffer =>
    let recvRIOBufferPool := s.recvRIOBufferPool.eraseIdx k
    -- The ring is not given back where `InitSession` fails.
    if rq = false then some { s with recvRIOBufferPool }
    else
      s.rings[recvBuffer]?.map fun ring =>
        let se : ReceivingSession := { recvBuffer, rioRecvOffset := 0, inMap := true, posted := ok }
        { s with
          recvRIOBufferPool
          sessions := s.sessions ++ [se]
          posts := s.posts ++ recvPosts ringMax ok true se ring }

/-- `RecvCompleted`, for a session `GetIOCompletedContext` finds. -/
def recvCompleted (cfg : NetConfig) (ringMax : ℕ) (s : RingState) (sid : ℕ) (data : List UInt8)
    (ok : Bool) : Option RingState :=
  s.sessions[sid]?.bind fun se =>
    if se.inMap ∧ se.posted then
      s.rings[se.recvBuffer]?.map fun ring =>
        let r := RIOServer.recvCompleted cfg ring.unread data
        let ring : RecvRIOBuffer :=
          { writePos := (ring.writePos + data.length) % ringMax, unread := r.rest }
        let se' : ReceivingSession :=
          { se with
            rioRecvOffset := se.rioRecvOffset + UInt32.ofNat data.length
            posted := ok }
        { s with
          rings := s.rings.set se.recvBuffer ring
          sessions := s.sessions.set sid se'
          posts := s.posts ++ recvPosts ringMax ok false se' ring }
    else none

/-- `ReleaseSession`. -/
def releaseSession (s : RingState) (sid : ℕ) : Option RingState :=
  s.sessions[sid]?.map fun se =>
    { s with
      recvRIOBufferPool := s.recvRIOBufferPool ++ [se.recvBuffer]
      sessions := s.sessions.set sid { se with inMap := false } }

def step (cfg : NetConfig) (ringMax : ℕ) (s : RingState) : RingEvent → Option RingState
  | .makeNewSession k rq ok => s.makeNewSession ringMax k rq ok
  | .recvCompleted sid data ok => s.recvCompleted cfg ringMax sid data ok
  | .releaseSession sid => s.releaseSession sid

/-- `ReserveRIOBuffer` fills the pool with `n` rings, on each of which it calls `InitPointer`. -/
def reserved (n : ℕ) : RingState := ⟨List.replicate n ⟨0, []⟩, List.range n, [], []⟩

end RingState

/-- The rings over the life of the sessions. -/
def ringSystem (cfg : NetConfig) (ringMax : ℕ) : System RingState RingEvent where
  Init s := ∃ n, s = .reserved n
  step := RingState.step cfg ringMax

/-! ## What is asked of a post -/

/-- **The kernel writes where the ring expects it**, and a first receive on an empty ring. -/
def PostedReceive.Right (p : PostedReceive) : Prop :=
  p.offset = p.ring.writePos ∧ (p.first = true → p.ring.unread = [])

instance (p : PostedReceive) : Decidable p.Right :=
  inferInstanceAs (Decidable (_ ∧ (_ → _)))

/-- All receives were posted right. -/
def PostsRight (s : RingState) : Prop := ∀ p ∈ s.posts, p.Right

/-- The session has a receive that may still complete. -/
def ReceivingSession.Receives (se : ReceivingSession) : Prop := se.inMap = true ∧ se.posted = true

instance (se : ReceivingSession) : Decidable se.Receives := inferInstanceAs (Decidable (_ ∧ _))

/-- A session that posts its first receive has taken a ring as `InitPointer` leaves it. -/
def TakesResetRing (s : RingState) : RingEvent → Prop
  | .makeNewSession k rq ok => rq = true → ok = true → ∀ r ∈ s.recvRIOBufferPool[k]?,
      ∀ ring ∈ s.rings[r]?, ring = ⟨0, []⟩
  | .recvCompleted _ _ _ => True
  | .releaseSession _ => True

/-- And one that no other session receives into. -/
def TakesOwnRing (s : RingState) : RingEvent → Prop
  | .makeNewSession k rq ok => rq = true → ok = true → ∀ r ∈ s.recvRIOBufferPool[k]?,
      ∀ se ∈ s.sessions, se.Receives → se.recvBuffer ≠ r
  | .recvCompleted _ _ _ => True
  | .releaseSession _ => True

/-- The 32 bits of `rioRecvOffset` do not overflow. -/
def OffsetFits (s : RingState) : RingEvent → Prop
  | .recvCompleted sid data _ => ∀ se ∈ s.sessions[sid]?,
      se.rioRecvOffset.toNat + data.length < 2 ^ 32
  | .makeNewSession _ _ _ => True
  | .releaseSession _ => True

instance (s : RingState) (event : RingEvent) : Decidable (TakesResetRing s event) :=
  match event with
  | .makeNewSession k rq ok => inferInstanceAs (Decidable (rq = true → ok = true →
      ∀ r ∈ s.recvRIOBufferPool[k]?, ∀ ring ∈ s.rings[r]?, ring = ⟨0, []⟩))
  | .recvCompleted _ _ _ => .isTrue trivial
  | .releaseSession _ => .isTrue trivial

instance (s : RingState) (event : RingEvent) : Decidable (TakesOwnRing s event) :=
  match event with
  | .makeNewSession k rq ok => inferInstanceAs (Decidable (rq = true → ok = true →
      ∀ r ∈ s.recvRIOBufferPool[k]?, ∀ se ∈ s.sessions, se.Receives → se.recvBuffer ≠ r))
  | .recvCompleted _ _ _ => .isTrue trivial
  | .releaseSession _ => .isTrue trivial

instance (s : RingState) (event : RingEvent) : Decidable (OffsetFits s event) :=
  match event with
  | .recvCompleted sid data _ => inferInstanceAs (Decidable (∀ se ∈ s.sessions[sid]?,
      se.rioRecvOffset.toNat + data.length < 2 ^ 32))
  | .makeNewSession _ _ _ => .isTrue trivial
  | .releaseSession _ => .isTrue trivial

variable {s s' : RingState} {event : RingEvent} {se se' : ReceivingSession} {sid : ℕ}
  {data : List UInt8} {ring : RecvRIOBuffer} {es : List RingEvent} {ok first : Bool} {n : ℕ}

/-! ## One step -/

/-- **What a step posts**, and on which ring. -/
inductive RingStep (cfg : NetConfig) (ringMax : ℕ) (s : RingState) : RingEvent → RingState → Prop
  | lost {k : ℕ} {ok : Bool} : RingStep cfg ringMax s (.makeNewSession k false ok)
      { s with recvRIOBufferPool := s.recvRIOBufferPool.eraseIdx k }
  | made {k r : ℕ} {ok : Bool} {ring : RecvRIOBuffer} : s.recvRIOBufferPool[k]? = some r →
      s.rings[r]? = some ring →
      RingStep cfg ringMax s (.makeNewSession k true ok)
        { s with
          recvRIOBufferPool := s.recvRIOBufferPool.eraseIdx k
          sessions := s.sessions ++ [⟨r, 0, true, ok⟩]
          posts := s.posts ++ recvPosts ringMax ok true ⟨r, 0, true, ok⟩ ring }
  | received {sid : ℕ} {data unread : List UInt8} {ok : Bool} {se se' : ReceivingSession}
      {ring ring' : RecvRIOBuffer} : s.sessions[sid]? = some se → se.Receives →
      s.rings[se.recvBuffer]? = some ring →
      ring' = ⟨(ring.writePos + data.length) % ringMax, unread⟩ →
      se' = { se with
        rioRecvOffset := se.rioRecvOffset + UInt32.ofNat data.length, posted := ok } →
      RingStep cfg ringMax s (.recvCompleted sid data ok)
        { s with
          rings := s.rings.set se.recvBuffer ring'
          sessions := s.sessions.set sid se'
          posts := s.posts ++ recvPosts ringMax ok false se' ring' }
  | released {sid : ℕ} {se : ReceivingSession} : s.sessions[sid]? = some se →
      RingStep cfg ringMax s (.releaseSession sid)
        { s with
          recvRIOBufferPool := s.recvRIOBufferPool ++ [se.recvBuffer]
          sessions := s.sessions.set sid { se with inMap := false } }

theorem ringStep (h : s.step cfg ringMax event = some s') : RingStep cfg ringMax s event s' := by
  cases event with
  | makeNewSession k rq ok =>
    obtain ⟨r, hr, hrest⟩ := Option.bind_eq_some_iff.mp h
    cases rq with
    | false =>
      obtain rfl := Option.some.inj hrest
      exact .lost
    | true =>
      obtain ⟨ring, hring, rfl⟩ := Option.map_eq_some_iff.mp hrest
      exact .made hr hring
  | recvCompleted sid data ok =>
    obtain ⟨se, hse, hrest⟩ := Option.bind_eq_some_iff.mp h
    split at hrest
    · rename_i hreceives
      obtain ⟨ring, hring, rfl⟩ := Option.map_eq_some_iff.mp hrest
      exact .received hse hreceives hring rfl rfl
    · exact nomatch hrest
  | releaseSession sid =>
    obtain ⟨se, hse, rfl⟩ := Option.map_eq_some_iff.mp h
    exact .released hse

/-- Posts are only added. -/
theorem posts_subset (h : s.step cfg ringMax event = some s') {p : PostedReceive}
    (hp : p ∈ s.posts) : p ∈ s'.posts := by
  cases ringStep h with
  | lost => exact hp
  | made => exact List.mem_append_left _ hp
  | received => exact List.mem_append_left _ hp
  | released => exact hp

/-- **The offset and the write position move together.** -/
theorem mod_add_length (hfits : se.rioRecvOffset.toNat + data.length < 2 ^ 32) :
    (se.rioRecvOffset + UInt32.ofNat data.length).toNat % ringMax =
      (se.rioRecvOffset.toNat % ringMax + data.length) % ringMax := by
  have hadd : (se.rioRecvOffset + UInt32.ofNat data.length).toNat =
      se.rioRecvOffset.toNat + data.length := by
    rw [UInt32.toNat_add, UInt32.toNat_ofNat', Nat.mod_eq_of_lt (by omega : data.length < 2 ^ 32),
      Nat.mod_eq_of_lt hfits]
  rw [hadd, Nat.mod_add_mod]

/-- A receive moves the offset, taken round the ring, as far as the write position. -/
def MovesOffset (ringMax : ℕ) (s : RingState) : RingEvent → Prop
  | .recvCompleted sid data _ => ∀ se ∈ s.sessions[sid]?,
      (se.rioRecvOffset + UInt32.ofNat data.length).toNat % ringMax =
        (se.rioRecvOffset.toNat % ringMax + data.length) % ringMax
  | .makeNewSession _ _ _ => True
  | .releaseSession _ => True

/-- It does where the offset does not overflow. -/
theorem OffsetFits.movesOffset (h : OffsetFits s event) : MovesOffset ringMax s event := by
  cases event with
  | recvCompleted sid data ok => exact fun se hse => mod_add_length (h se hse)
  | makeNewSession _ _ _ | releaseSession _ => trivial

/-! ## Over a run -/

/-- The invariant: a session that receives has its offset at the write position of a ring that no
other session receives into. -/
structure Aligned (ringMax : ℕ) (s : RingState) : Prop where
  aligned : ∀ (sid : ℕ) (se : ReceivingSession), s.sessions[sid]? = some se → se.Receives →
    ∃ ring, s.rings[se.recvBuffer]? = some ring ∧
      se.rioRecvOffset.toNat % ringMax = ring.writePos
  apart : ∀ (sid sid' : ℕ) (se se' : ReceivingSession), s.sessions[sid]? = some se →
    s.sessions[sid']? = some se' → se.Receives → se'.Receives →
    se.recvBuffer = se'.recvBuffer → sid = sid'
  right : PostsRight s

/-- A post on a ring whose write position is the session's offset is right. -/
theorem right_of_mem_recvPosts {p : PostedReceive} (hp : p ∈ recvPosts ringMax ok first se ring)
    (h : ok = true → se.rioRecvOffset.toNat % ringMax = ring.writePos ∧
      (first = true → ring.unread = [])) : p.Right := by
  cases ok with
  | false => exact absurd hp List.not_mem_nil
  | true =>
    obtain rfl := List.mem_singleton.mp hp
    exact h rfl

/-- Sessions that go on receiving where they did stay apart. -/
theorem Aligned.apart_of (hs : Aligned ringMax s) {sessions : List ReceivingSession}
    (hold : ∀ (sid : ℕ) (se : ReceivingSession), sessions[sid]? = some se → se.Receives →
      ∃ se₀, s.sessions[sid]? = some se₀ ∧ se₀.Receives ∧ se₀.recvBuffer = se.recvBuffer)
    (sid sid' : ℕ) (se se' : ReceivingSession) (hse : sessions[sid]? = some se)
    (hse' : sessions[sid']? = some se') (hr : se.Receives) (hr' : se'.Receives)
    (heq : se.recvBuffer = se'.recvBuffer) : sid = sid' := by
  obtain ⟨se₀, hse₀, hr₀, hbuffer⟩ := hold sid se hse hr
  obtain ⟨se₁, hse₁, hr₁, hbuffer'⟩ := hold sid' se' hse' hr'
  exact hs.apart sid sid' se₀ se₁ hse₀ hse₁ hr₀ hr₁ (hbuffer.trans (heq.trans hbuffer'.symm))

/-- **A step under the conditions keeps the sessions aligned.** -/
theorem Aligned.step (hs : Aligned ringMax s) (hreset : TakesResetRing s event)
    (hown : TakesOwnRing s event) (hmoves : MovesOffset ringMax s event)
    (h : s.step cfg ringMax event = some s') : Aligned ringMax s' := by
  cases ringStep h with
  | lost => exact ⟨hs.aligned, hs.apart, hs.right⟩
  | @made k r ok ring hr hring =>
    have hring0 : ok = true → ring = ⟨0, []⟩ := fun hok => hreset rfl hok r hr ring hring
    have hothers : ok = true → ∀ se ∈ s.sessions, se.Receives → se.recvBuffer ≠ r :=
      fun hok => hown rfl hok r hr
    refine ⟨fun sid se hse hreceives => ?_, fun sid sid' se se' hse hse' hr hr' heq => ?_,
      fun p hp => ?_⟩
    · rcases getElem?_concat_eq_some hse with hse | ⟨-, rfl⟩
      · exact hs.aligned sid se hse hreceives
      · obtain rfl := hring0 hreceives.2
        exact ⟨_, hring, Nat.zero_mod _⟩
    · rcases getElem?_concat_eq_some hse with hse | ⟨rfl, rfl⟩
      · rcases getElem?_concat_eq_some hse' with hse' | ⟨-, rfl⟩
        · exact hs.apart sid sid' se se' hse hse' hr hr' heq
        · exact absurd heq (hothers hr'.2 se (List.mem_of_getElem? hse) hr)
      · rcases getElem?_concat_eq_some hse' with hse' | ⟨rfl, -⟩
        · exact absurd heq.symm (hothers hr.2 se' (List.mem_of_getElem? hse') hr')
        · rfl
    · rcases List.mem_append.mp hp with hp | hp
      · exact hs.right p hp
      · refine right_of_mem_recvPosts hp fun hok => ?_
        obtain rfl := hring0 hok
        exact ⟨Nat.zero_mod _, fun _ => rfl⟩
  | @received sid data unread ok se se' ring ring' hse hreceives hring hring' hse' =>
    obtain ⟨ring₀, hring₀, hoffset⟩ := hs.aligned sid se hse hreceives
    obtain rfl := Option.some.inj (hring.symm.trans hring₀)
    have hmoved : se'.rioRecvOffset.toNat % ringMax = ring'.writePos := by
      subst hring' hse'
      rw [hmoves se hse, hoffset]
    have hbuffer : se'.recvBuffer = se.recvBuffer := by rw [hse']
    refine ⟨fun sid₁ se₁ hse₁ hreceives₁ => ?_, hs.apart_of fun sid₁ se₁ hse₁ hr₁ => ?_,
      fun p hp => ?_⟩
    · rcases getElem?_set_eq_some hse₁ with ⟨rfl, rfl⟩ | ⟨hne, hse₁⟩
      · refine ⟨ring', ?_, hmoved⟩
        rw [hbuffer]
        exact List.getElem?_set_self (List.getElem?_eq_some_iff.mp hring).1
      · -- Another session receives into another ring.
        obtain ⟨ring₁, hring₁, hoffset₁⟩ := hs.aligned sid₁ se₁ hse₁ hreceives₁
        have hother : se.recvBuffer ≠ se₁.recvBuffer := fun heq =>
          hne (hs.apart sid sid₁ se se₁ hse hse₁ hreceives hreceives₁ heq).symm
        exact ⟨ring₁, (List.getElem?_set_ne hother).trans hring₁, hoffset₁⟩
    · rcases getElem?_set_eq_some hse₁ with ⟨rfl, rfl⟩ | ⟨-, hse₁⟩
      · exact ⟨se, hse, hreceives, hbuffer.symm⟩
      · exact ⟨se₁, hse₁, hr₁, rfl⟩
    · rcases List.mem_append.mp hp with hp | hp
      · exact hs.right p hp
      · exact right_of_mem_recvPosts hp fun _ => ⟨hmoved, fun hfirst => (nomatch hfirst)⟩
  | @released sid se hse =>
    have hold : ∀ (sid₁ : ℕ) (se₁ : ReceivingSession),
        (s.sessions.set sid { se with inMap := false })[sid₁]? = some se₁ → se₁.Receives →
        s.sessions[sid₁]? = some se₁ := by
      intro sid₁ se₁ hse₁ hreceives₁
      rcases getElem?_set_eq_some hse₁ with ⟨-, rfl⟩ | ⟨-, hse₁⟩
      · exact nomatch hreceives₁.1
      · exact hse₁
    exact ⟨fun sid₁ se₁ hse₁ hr₁ => hs.aligned sid₁ se₁ (hold sid₁ se₁ hse₁ hr₁) hr₁,
      hs.apart_of fun sid₁ se₁ hse₁ hr₁ => ⟨se₁, hold sid₁ se₁ hse₁ hr₁, hr₁, rfl⟩, hs.right⟩

/-- **A first receive that is posted right** is posted on a ring as `InitPointer` leaves it. -/
theorem takesResetRing_of_postsRight (hs' : PostsRight s')
    (h : s.step cfg ringMax event = some s') : TakesResetRing s event := by
  cases ringStep h with
  | lost => exact fun hrq => (nomatch hrq)
  | released => exact trivial
  | received => exact trivial
  | @made k r ok ring hr hring =>
    cases ok with
    | false => exact fun _ hok => (nomatch hok)
    | true =>
      intro _ _ r' hr' ring' hring'
      obtain rfl := Option.some.inj (hr.symm.trans hr')
      obtain rfl := Option.some.inj (hring.symm.trans hring')
      have hmem : postedReceive ringMax true ⟨r, 0, true, true⟩ ring ∈
          s.posts ++ recvPosts ringMax true true ⟨r, 0, true, true⟩ ring :=
        List.mem_append_right _ (List.mem_singleton.mpr rfl)
      obtain ⟨hoffset, hempty⟩ := hs' _ hmem
      have hpos : 0 % ringMax = ring.writePos := hoffset
      rw [Nat.zero_mod] at hpos
      obtain ⟨writePos, unread⟩ := ring
      obtain rfl : unread = [] := hempty rfl
      obtain rfl : 0 = writePos := hpos
      rfl

theorem aligned_reserved (n : ℕ) : Aligned ringMax (.reserved n) := by
  refine ⟨fun sid se hse => ?_, fun sid sid' se se' hse => ?_, fun p hp => ?_⟩
  · simp [RingState.reserved] at hse
  · simp [RingState.reserved] at hse
  · exact absurd hp List.not_mem_nil

/-- **The kernel writes where the ring expects it** in every run in which each session that posts
its first receive has taken a ring as `InitPointer` leaves it, and one no other session receives
into; and where every post of a run was right, each first receive of it was posted on such a
ring. -/
theorem postsRight_of_takesResetRing {es : List RingEvent}
    (hr : (ringSystem cfg ringMax).run (.reserved n) es = some s)
    (hfits : (ringSystem cfg ringMax).Meets OffsetFits (.reserved n) es) :
    ((ringSystem cfg ringMax).Meets (fun s event => TakesResetRing s event ∧ TakesOwnRing s event)
        (.reserved n) es → PostsRight s) ∧
      (PostsRight s → (ringSystem cfg ringMax).Meets TakesResetRing (.reserved n) es) := by
  constructor
  · intro hmeets
    have h := (hmeets.and hfits).invariant (P := Aligned ringMax)
      (fun _ _ _ hs hc h => hs.step hc.1.1 hc.1.2 hc.2.movesOffset h) hr (aligned_reserved n)
    exact h.right
  · intro hright
    by_contra hnot
    obtain ⟨es₁, e, es₂, t, u, rfl, -, -, hunmet, hstep, hrest⟩ :=
      System.exists_first_unmet hnot hr
    have hu : PostsRight u := fun p hp => hright p <|
      System.Meets.invariant (P := fun s => p ∈ s.posts) (fun _ _ _ hp _ h => posts_subset h hp)
        System.meets_true hrest hp
    exact hunmet (takesResetRing_of_postsRight hu hstep)

/-- Two sessions on two rings, one of which has three bytes of a frame when the other's first
receive is posted. -/
theorem postsRight_twoRings : ∃ s,
    (ringSystem checksumConfig 10).run (.reserved 2)
        [.makeNewSession 0 true true, .recvCompleted 0 [119, 1, 0] true,
          .makeNewSession 0 true true] = some s ∧
      s.posts.map PostedReceive.offset = [0, 3, 0] ∧ PostsRight s := by
  obtain ⟨s, hmeets, hr, hf⟩ := (ringSystem checksumConfig 10).exists_run
    [.makeNewSession 0 true true, .recvCompleted 0 [119, 1, 0] true, .makeNewSession 0 true true]
    (s := RingState.reserved 2)
    (c := fun s e => decide ((TakesResetRing s e ∧ TakesOwnRing s e) ∧ OffsetFits s e))
    (f := fun s => decide (s.posts.map PostedReceive.offset = [0, 3, 0])) (by decide +kernel)
  simp only [decide_eq_true_eq] at hmeets hf
  refine ⟨s, hr, hf, ?_⟩
  exact (postsRight_of_takesResetRing hr (hmeets.mono fun _ _ h => h.2)).1
    (hmeets.mono fun _ _ h => h.1)

/-- **A ring that comes back from the pool**: the next session's first receive is posted at 0, three
bytes before the write position, and on a ring that is not empty. -/
theorem not_postsRight_recycledRing : ∃ s,
    (ringSystem checksumConfig 10).run (.reserved 1)
        [.makeNewSession 0 true true, .recvCompleted 0 [119, 1, 0] true, .releaseSession 0,
          .makeNewSession 0 true true] = some s ∧
      (ringSystem checksumConfig 10).Meets OffsetFits (.reserved 1)
        [.makeNewSession 0 true true, .recvCompleted 0 [119, 1, 0] true, .releaseSession 0,
          .makeNewSession 0 true true] ∧ ¬ PostsRight s := by
  obtain ⟨s, hmeets, hr, hf⟩ := (ringSystem checksumConfig 10).exists_run
    [.makeNewSession 0 true true, .recvCompleted 0 [119, 1, 0] true, .releaseSession 0,
      .makeNewSession 0 true true]
    (s := RingState.reserved 1) (c := fun s e => decide (OffsetFits s e))
    (f := fun s => decide (∃ p ∈ s.posts, ¬ p.Right)) (by decide +kernel)
  simp only [decide_eq_true_eq] at hmeets hf
  obtain ⟨p, hp, hwrong⟩ := hf
  exact ⟨s, hr, hmeets, fun hright => hwrong (hright p hp)⟩

end RIOServer

end DdingGameServer
