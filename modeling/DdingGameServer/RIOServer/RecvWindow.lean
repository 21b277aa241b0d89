import DdingGameServer.Common.Circular
import DdingGameServer.RIOServer.Rings
/-!
# RIOServer — the window `RecvPost` gives the kernel

`RecvPost` lets the kernel write behind what the receive ring holds, up to the end of the contiguous
free run there. From the length of that run it takes the length of the contiguous used run away,
which is somewhere else; the difference is a signed number that is stored into an unsigned field. So
the window is right only while the unread bytes in front are fewer than the free ones behind.

`CRingbuffer` is not part of the repository: `GetNotBrokenGetSize` and `GetNotBrokenPutSize` are the
lengths of the two contiguous runs.
-/

namespace DdingGameServer

namespace RIOServer

/-- A ring, whose sizes are of type `int`. Its capacity is `DEFAULT_RINGBUFFER_MAX`. -/
structure RecvRing extends Circular where
  capacity_lt : capacity < 2 ^ 31

/-- `GetNotBrokenGetSize`. -/
def RecvRing.getNotBrokenGetSize (ring : RecvRing) : ℤ := ring.contiguousUsed

/-- `GetNotBrokenPutSize`. -/
def RecvRing.getNotBrokenPutSize (ring : RecvRing) : ℤ := ring.contiguousFree

/-- The two numbers of a `RIO_BUF`. -/
structure RioBuf where
  offset : UInt32
  length : UInt32
  deriving DecidableEq, Repr

/-- The buffer `RecvPost` posts. -/
def recvPostBuf (ring : RecvRing) (rioRecvOffset : UInt32) : RioBuf :=
  let brokenSize := ring.getNotBrokenGetSize
  let restSize := ring.getNotBrokenPutSize - brokenSize
  { offset := rioRecvOffset % UInt32.ofNat ring.capacity
    length := UInt32.ofInt restSize }

/-- **The window is in the free run**: it is not empty, and inside the contiguous free run at the
write position. -/
structure PostsInside (ring : RecvRing) (buf : RioBuf) : Prop where
  length_pos : 0 < buf.length.toNat
  le_offset : ring.writePos ≤ buf.offset.toNat
  end_le : buf.offset.toNat + buf.length.toNat ≤ ring.writePos + ring.contiguousFree

variable {ring : RecvRing} {rioRecvOffset : UInt32} {buf : RioBuf} {p : ℕ}

/-- **What such a window is for**: the kernel overwrites nothing that is still to be read. -/
theorem PostsInside.not_isUsed (h : PostsInside ring buf) (hp : buf.offset.toNat ≤ p)
    (hend : p < buf.offset.toNat + buf.length.toNat) : p < ring.capacity ∧ ¬ ring.IsUsed p := by
  have hle := h.le_offset
  have hlast := h.end_le
  have hfree : ring.IsFree (ring.writePos + (p - ring.writePos)) :=
    Circular.le_contiguousFree_iff.mp le_rfl _ (by omega)
  have hrun : ring.contiguousFree ≤ ring.capacity - ring.writePos := min_le_right _ _
  rw [Nat.add_sub_cancel' (by omega)] at hfree
  exact ⟨by omega, hfree.not_isUsed⟩

/-- Both runs are shorter than an `int` can say. -/
theorem contiguous_le (ring : RecvRing) : ring.contiguousUsed ≤ ring.capacity ∧
    ring.contiguousFree ≤ ring.capacity - ring.writePos := by
  have hle := Circular.used_add_free_le (b := ring.toCircular)
  have hused : ring.contiguousUsed ≤ ring.used := min_le_left _ _
  exact ⟨by omega, min_le_right _ _⟩

/-- `Offset` is the receive offset, taken round the ring. -/
theorem toNat_offset : (recvPostBuf ring rioRecvOffset).offset.toNat =
    rioRecvOffset.toNat % ring.capacity := by
  have hlt := ring.capacity_lt
  have hcapacity : ring.capacity % 2 ^ 32 = ring.capacity := Nat.mod_eq_of_lt (by omega)
  show (rioRecvOffset % UInt32.ofNat ring.capacity).toNat = _
  rw [UInt32.toNat_mod, UInt32.toNat_ofNat', hcapacity]

/-- `Length` is the difference of the two runs, -/
theorem toNat_length (rioRecvOffset : UInt32)
    (h : ring.contiguousUsed ≤ ring.contiguousFree) :
    (recvPostBuf ring rioRecvOffset).length.toNat = ring.contiguousFree - ring.contiguousUsed := by
  have hlt := ring.capacity_lt
  obtain ⟨-, hfree⟩ := contiguous_le ring
  show (UInt32.ofNat (((ring.contiguousFree : ℤ) - ring.contiguousUsed) % 2 ^ 32).toNat).toNat = _
  rw [UInt32.toNat_ofNat']
  omega

/-- or, where that is negative, more than any ring has. -/
theorem le_toNat_length (rioRecvOffset : UInt32)
    (h : ring.contiguousFree < ring.contiguousUsed) :
    2 ^ 31 ≤ (recvPostBuf ring rioRecvOffset).length.toNat := by
  have hlt := ring.capacity_lt
  obtain ⟨hused, -⟩ := contiguous_le ring
  show 2 ^ 31 ≤
    (UInt32.ofNat (((ring.contiguousFree : ℤ) - ring.contiguousUsed) % 2 ^ 32).toNat).toNat
  rw [UInt32.toNat_ofNat']
  omega

/-- Where the write position is the receive offset, the window is in the free run exactly where fewer
bytes are unread in front than can be written behind, in one piece each. -/
theorem postsInside_recvPostBuf (haligned : ring.writePos = rioRecvOffset.toNat % ring.capacity) :
    PostsInside ring (recvPostBuf ring rioRecvOffset) ↔
      ring.contiguousUsed < ring.contiguousFree := by
  have hoffset : (recvPostBuf ring rioRecvOffset).offset.toNat = ring.writePos :=
    toNat_offset.trans haligned.symm
  constructor
  · intro h
    have hpos := h.length_pos
    have hend := h.end_le
    rcases Nat.lt_or_ge ring.contiguousFree ring.contiguousUsed with hneg | hle
    · have hlong := le_toNat_length rioRecvOffset hneg
      have hlt := ring.capacity_lt
      obtain ⟨-, hfree⟩ := contiguous_le ring
      omega
    · rw [toNat_length rioRecvOffset hle] at hpos
      omega
  · intro hlt
    have hlength := toNat_length rioRecvOffset hlt.le
    exact ⟨by omega, hoffset.ge, by omega⟩

/-- **`RecvPost` posts a window inside the free space exactly where `GetNotBrokenGetSize` is less than
`GetNotBrokenPutSize`**, for every ring and every position in it. -/
theorem postsInside_iff (haligned : ring.writePos = rioRecvOffset.toNat % ring.capacity) :
    PostsInside ring (recvPostBuf ring rioRecvOffset) ↔
      ring.getNotBrokenGetSize < ring.getNotBrokenPutSize :=
  (postsInside_recvPostBuf haligned).trans Int.ofNat_lt.symm

/-- Three bytes of ten are unread: the window has four of the seven that are free. -/
theorem postsInside_three : PostsInside ⟨⟨10, 0, 0, 3, by decide, by decide⟩, by decide⟩
    (recvPostBuf ⟨⟨10, 0, 0, 3, by decide, by decide⟩, by decide⟩ 13) ∧
    recvPostBuf ⟨⟨10, 0, 0, 3, by decide, by decide⟩, by decide⟩ 13 = ⟨3, 4⟩ :=
  ⟨(postsInside_iff (by decide)).mpr (by decide), by decide⟩

/-- **Six bytes of ten are unread**: the length is minus two. -/
theorem not_postsInside_six : ¬ PostsInside ⟨⟨10, 0, 0, 6, by decide, by decide⟩, by decide⟩
    (recvPostBuf ⟨⟨10, 0, 0, 6, by decide, by decide⟩, by decide⟩ 6) ∧
    recvPostBuf ⟨⟨10, 0, 0, 6, by decide, by decide⟩, by decide⟩ 6 = ⟨6, 4294967294⟩ := by
  refine ⟨fun h => ?_, by decide⟩
  have hend := h.end_le
  exact absurd hend (by decide)

/-! ## The rings of the sessions -/

/-- A ring of the sessions, by its positions. -/
def RecvRIOBuffer.toRing (ring : RecvRIOBuffer) (ringMax gap : ℕ) (hwrite : ring.writePos < ringMax)
    (hfits : ring.unread.length + gap ≤ ringMax) (hmax : ringMax < 2 ^ 31) : RecvRing where
  capacity := ringMax
  gap := gap
  readPos := (ring.writePos + (ringMax - ring.unread.length)) % ringMax
  used := ring.unread.length
  readPos_lt := Nat.mod_lt _ (Nat.zero_lt_of_lt hwrite)
  used_le := hfits
  capacity_lt := hmax

theorem writePos_toRing {ringMax gap : ℕ} {ring : RecvRIOBuffer} (hwrite : ring.writePos < ringMax)
    (hfits : ring.unread.length + gap ≤ ringMax) (hmax : ringMax < 2 ^ 31) :
    (ring.toRing ringMax gap hwrite hfits hmax).writePos = ring.writePos := by
  show ((ring.writePos + (ringMax - ring.unread.length)) % ringMax + ring.unread.length) % ringMax =
    ring.writePos
  have hround : ring.writePos + (ringMax - ring.unread.length) + ring.unread.length =
      ring.writePos + ringMax := by omega
  rw [Nat.mod_add_mod, hround, Nat.add_mod_right, Nat.mod_eq_of_lt hwrite]

/-- **A receive that is posted right on such a ring** is posted in its free run while fewer bytes are
unread in front than can be written behind. -/
theorem postsInside_of_right {ringMax gap : ℕ} {first : Bool} {se : ReceivingSession}
    {ring : RecvRIOBuffer} (hwrite : ring.writePos < ringMax)
    (hfits : ring.unread.length + gap ≤ ringMax) (hmax : ringMax < 2 ^ 31)
    (hright : (postedReceive ringMax first se ring).Right) :
    PostsInside (ring.toRing ringMax gap hwrite hfits hmax)
        (recvPostBuf (ring.toRing ringMax gap hwrite hfits hmax) se.rioRecvOffset) ↔
      (ring.toRing ringMax gap hwrite hfits hmax).contiguousUsed <
        (ring.toRing ringMax gap hwrite hfits hmax).contiguousFree := by
  have hoffset : se.rioRecvOffset.toNat % ringMax = ring.writePos := hright.1
  exact postsInside_recvPostBuf ((writePos_toRing hwrite hfits hmax).trans hoffset.symm)

end RIOServer

end DdingGameServer
