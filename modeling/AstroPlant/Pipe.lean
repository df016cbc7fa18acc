import Mathlib.Data.List.Basic

/-!
# A bounded pipe

What is written into the pipe comes out of it in the same order, and a writer
waits while the pipe is full. The pipe remembers what has come out, so that what
was sent is known at all times.

A write hands back what did not fit, and a pipe that is full takes nothing; a
read is not enabled while the pipe is empty. Both leave what was sent as a whole
alone but for what was written (`sent_write`, `sent_read`), so that a program
around a pipe needs one equation of its own: what it has sent, and what it still
holds, is all that there is.
-/

namespace AstroPlant

structure Pipe (α : Type) (capacity : Nat) where
  buffer : List α
  received : List α
  bounded : buffer.length ≤ capacity

namespace Pipe

variable {α : Type} {capacity : Nat} {p p' : Pipe α capacity} {chunk rest : List α}

def empty : Pipe α capacity := ⟨[], [], Nat.zero_le _⟩

/-- All that was ever written. -/
def sent (p : Pipe α capacity) : List α := p.received ++ p.buffer

@[simp] theorem sent_empty : (empty : Pipe α capacity).sent = [] := rfl

theorem length_sent (p : Pipe α capacity) :
    p.sent.length = p.received.length + p.buffer.length := List.length_append

/-- Writes as much of the chunk as there is room for; `none` while there is none. -/
def write (chunk : List α) (p : Pipe α capacity) : Option (Pipe α capacity × List α) :=
  let room := capacity - p.buffer.length
  if room = 0 ∧ chunk ≠ [] then none
  else
    some ({ p with
      buffer := p.buffer ++ chunk.take room
      bounded := by
        have hp := p.bounded
        rw [List.length_append, List.length_take]
        omega },
      chunk.drop room)

/-- Reads the first `n`, if there are as many. -/
def read (n : Nat) (p : Pipe α capacity) : Option (Pipe α capacity) :=
  if 0 < n ∧ n ≤ p.buffer.length then
    some {
      buffer := p.buffer.drop n
      received := p.received ++ p.buffer.take n
      bounded := by
        have hp := p.bounded
        rw [List.length_drop]
        omega }
  else none

theorem sent_write (h : p.write chunk = some (p', rest)) : p'.sent ++ rest = p.sent ++ chunk := by
  unfold write at h
  dsimp only at h
  split at h
  · cases h
  · obtain ⟨rfl, rfl⟩ := Prod.mk.inj (Option.some.inj h)
    simp [sent]

theorem sent_read {n : Nat} (h : p.read n = some p') : p'.sent = p.sent := by
  unfold read at h
  split at h
  · obtain rfl := Option.some.inj h
    simp [sent]
  · cases h

theorem write_singleton {a : α} (h : p.write [a] = some (p', rest)) :
    p'.sent = p.sent ++ [a] ∧ p'.received = p.received := by
  have hsent := sent_write h
  unfold write at h
  dsimp only at h
  split at h
  · cases h
  · rename_i hroom
    obtain ⟨rfl, rfl⟩ := Prod.mk.inj (Option.some.inj h)
    have hroom : capacity - p.buffer.length ≠ 0 := fun h => hroom ⟨h, List.cons_ne_nil _ _⟩
    rw [List.drop_eq_nil_of_le (by rw [List.length_singleton]; omega), List.append_nil] at hsent
    exact ⟨hsent, rfl⟩

theorem read_one (h : p.read 1 = some p') :
    ∃ a, p.buffer.take 1 = [a] ∧ p'.received = p.received ++ [a] := by
  unfold read at h
  split at h
  · rename_i hlength
    obtain rfl := Option.some.inj h
    obtain ⟨a, rest, hbuffer⟩ := List.length_pos_iff_exists_cons.mp hlength.2
    have htake : p.buffer.take 1 = [a] := by rw [hbuffer]; rfl
    exact ⟨a, htake, congrArg (p.received ++ ·) htake⟩
  · cases h

theorem exists_read (p : Pipe α capacity) (h : p.buffer ≠ []) :
    ∃ p' : Pipe α capacity, p.read p.buffer.length = some p' ∧ p'.buffer = [] := by
  have hpos := List.length_pos_iff.mpr h
  unfold read
  rw [if_pos ⟨hpos, Nat.le_refl _⟩]
  exact ⟨_, rfl, List.drop_length⟩

end Pipe

end AstroPlant
