import Mathlib.Data.List.Basic
import Mathlib.Tactic.Common
/-!
# Strings that are a buffer and a size

A `StdString C` is a buffer of characters and the number of those that are the string; one character
at least follows them, the terminator. A copy takes the string and nothing else of the buffer. What
is written through a pointer to the buffer changes the characters and not the size: the text is in
the buffer, as `cString` reads it up to the first terminator, but it is the string only where the
size is right already, and a copy does not have it. Nothing here is about any particular program.
-/

namespace DdingGameServer

universe u

/-- **A string object.** -/
structure StdString (C : Type u) where
  buffer : List C
  size : ℕ
  lt : size < buffer.length
  deriving DecidableEq

namespace StdString

variable {C : Type u} [OfNat C 0] [DecidableEq C] (s : StdString C)

omit [OfNat C 0] [DecidableEq C] in
/-- The string: the first `size` characters. -/
def value : List C := s.buffer.take s.size

omit [DecidableEq C] in
/-- The string object of a text. -/
def ofList (text : List C) : StdString C := ⟨text ++ [0], text.length, by simp⟩

omit [DecidableEq C] in
/-- Make room for `n` characters. -/
def reserve (n : ℕ) : StdString C where
  buffer := s.buffer ++ List.replicate (n + 1 - s.buffer.length) 0
  size := s.size
  lt := by
    have := s.lt
    rw [List.length_append]
    omega

omit [DecidableEq C] in
/-- A copy. -/
def copy : StdString C := ofList s.value

omit [OfNat C 0] [DecidableEq C] in
/-- Write to the buffer from its start, behind the back of the string. -/
def write (text : List C) : StdString C where
  buffer := text ++ s.buffer.drop text.length
  size := s.size
  lt := by
    have := s.lt
    rw [List.length_append, List.length_drop]
    omega

/-- What a reader of the buffer finds, up to the first terminator. -/
def cString : List C := s.buffer.takeWhile (· ≠ 0)

variable {s} {text : List C} {n : ℕ}

omit [DecidableEq C] in
@[simp] theorem value_ofList : (ofList text).value = text := by simp [value, ofList]

omit [DecidableEq C] in
@[simp] theorem value_reserve : (s.reserve n).value = s.value := by
  exact List.take_append_of_le_length (Nat.le_of_lt s.lt)

omit [DecidableEq C] in
/-- **A copy is the string.** -/
@[simp] theorem value_copy : s.copy.value = s.value := value_ofList

omit [OfNat C 0] [DecidableEq C] in
@[simp] theorem size_write : (s.write text).size = s.size := rfl

omit [OfNat C 0] [DecidableEq C] in
/-- **What is written is not the string**: an empty one stays empty. -/
theorem value_write_of_size (h : s.size = 0) : (s.write text).value = [] := by
  simp [value, h]

omit [DecidableEq C] in
theorem value_copy_write (h : s.size = 0) : (s.write text).copy.value = [] := by
  rw [value_copy, value_write_of_size h]

/-- **It is in the buffer**, if it has a terminator behind it and none in it. -/
theorem cString_write (h : ∀ c ∈ text, c ≠ 0) : (s.write (text ++ [0])).cString = text := by
  show (text ++ [0] ++ _).takeWhile (· ≠ 0) = text
  rw [List.append_assoc, List.takeWhile_append_of_pos fun c hc => decide_eq_true (h c hc)]
  simp

end StdString

end DdingGameServer
