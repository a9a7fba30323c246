import ExchangeConnectivity.DelimitedLists
import ExchangeConnectivity.StringSplitting
import Mathlib.Data.Rat.Floor
import Mathlib.Tactic.Linarith

/-!
# Chunks of one size

`stringToChunks` emits a chunk when the index has gone one chunk further, and
what is left after the loop is the last chunk.
-/

namespace ExchangeConnectivity

open ByteStrings BoundedLoops DelimitedLists FailingComputations

namespace StringUtilities

theorem between_eq {str : Bytes} (bound : str.length < 2 ^ 63) {first last : Nat}
    (le : first ≤ last) (inside : last ≤ str.length) :
    between str first last = .ok (slice str first last) := by
  have length : sizeType ((last : Int) - first) = last - first :=
    sizeType_eq (by omega) (by omega)
  rw [between, length, stringView, if_pos (by omega), slice]

/-- What holds when the loop comes to an index. -/
structure ChunksBefore (str : Bytes) (chunkSize : Int) (idx : Nat) (state : ChunkState) : Prop where
  behind : state.prev < idx ∨ (idx = 0 ∧ state.prev = 0)
  near : 0 < chunkSize → (idx : Int) ≤ state.prev + chunkSize
  joined : state.chunks.flatten = str.take state.prev
  sized : ∀ chunk ∈ state.chunks, (chunk.length : Int) = chunkSize
  counted : (state.prev : Int) = state.chunks.length * chunkSize

namespace ChunksBefore

variable {str : Bytes} {chunkSize : Int64} {idx : Nat} {state : ChunkState}

theorem prev_le {size : Int} (before : ChunksBefore str size idx state) : state.prev ≤ idx := by
  rcases before.behind with less | ⟨rfl, zero⟩
  · exact Nat.le_of_lt less
  · exact Nat.le_of_eq zero

/-- A chunk is emitted at the first index beyond it. -/
theorem emit (before : ChunksBefore str chunkSize.toInt idx state)
    (isSize : chunkSize.toInt = (idx : Int) - state.prev) (inside : idx ≤ str.length) :
    ChunksBefore str chunkSize.toInt (idx + 1)
      { prev := idx, chunks := state.chunks ++ [slice str state.prev idx] } where
  behind := .inl (Nat.lt_succ_self idx)
  near := by
    intro positive
    push_cast
    omega
  joined := by
    rw [List.flatten_append, before.joined, List.flatten_singleton,
      take_append_slice before.prev_le]
  sized := by
    have le := before.prev_le
    intro chunk member
    rw [List.mem_append, List.mem_singleton] at member
    rcases member with earlier | rfl
    · exact before.sized chunk earlier
    · rw [length_slice inside, isSize]
      omega
  counted := by
    have counted := before.counted
    rw [List.length_append, List.length_singleton]
    push_cast
    linarith

theorem pass (before : ChunksBefore str chunkSize.toInt idx state)
    (notSize : ¬ chunkSize.toInt = (idx : Int) - state.prev) :
    ChunksBefore str chunkSize.toInt (idx + 1) state where
  behind := .inl (Nat.lt_succ_of_le before.prev_le)
  near := by
    intro positive
    have near := before.near positive
    push_cast
    omega
  joined := before.joined
  sized := before.sized
  counted := before.counted

/-- One round of the loop. -/
theorem round (before : ChunksBefore str chunkSize.toInt idx state)
    (bound : str.length < 2 ^ 63) (inside : idx < str.length) :
    ∃ next, chunkRound str chunkSize state idx = .ok next ∧
      ChunksBefore str chunkSize.toInt (idx + 1) next := by
  unfold chunkRound
  by_cases isSize : chunkSize.toInt = (idx : Int) - state.prev
  · refine ⟨_, ?_, before.emit isSize (Nat.le_of_lt inside)⟩
    rw [if_pos isSize, between_eq bound before.prev_le (Nat.le_of_lt inside), ok_bind]
  · exact ⟨state, if_neg isSize, before.pass isSize⟩

end ChunksBefore

/-- The ceiling of a quotient from the multiples the length lies between. -/
theorem length_eq_ceil {length count size : Nat} (positive : 0 < size)
    (behind : count * size < length ∨ (length = 0 ∧ count * size = 0))
    (near : length ≤ count * size + size) :
    count + 1 = max 1 ⌈(length / size : ℚ)⌉₊ := by
  have sizePositive : (0 : ℚ) < size := by exact_mod_cast positive
  rcases behind with less | ⟨rfl, zero⟩
  · have ceiling : ⌈(length / size : ℚ)⌉₊ = count + 1 := by
      rw [Nat.ceil_eq_iff (Nat.add_one_ne_zero count), Nat.add_sub_cancel, lt_div_iff₀ sizePositive,
        div_le_iff₀ sizePositive]
      have lessCast : (count * size : ℚ) < length := by exact_mod_cast less
      have nearCast : (length : ℚ) ≤ count * size + size := by exact_mod_cast near
      refine ⟨lessCast, ?_⟩
      push_cast
      linarith
    rw [ceiling]
    exact (Nat.max_eq_right (Nat.succ_le_succ (Nat.zero_le count))).symm
  · obtain rfl : count = 0 := (Nat.mul_eq_zero.mp zero).resolve_right (Nat.ne_of_gt positive)
    simp

/-- The chunks give back the string, and for a positive size they have that
size, but for the last, which is not longer and not empty unless the string
is. -/
structure CutsIntoChunks (str : StdString) (chunkSize : Int64) (chunks : List Bytes)
    (last : Bytes) : Prop where
  returned : stringToChunks str chunkSize = .ok (chunks ++ [last])
  joined : (chunks ++ [last]).flatten = str.bytes
  sized : 0 < chunkSize.toInt → ∀ chunk ∈ chunks, (chunk.length : Int) = chunkSize.toInt
  last_le : 0 < chunkSize.toInt → (last.length : Int) ≤ chunkSize.toInt
  last_nonempty : 0 < chunkSize.toInt → str.bytes ≠ [] → 1 ≤ last.length
  counted : 0 < chunkSize.toInt →
    (chunks ++ [last]).length = max 1 ⌈(str.bytes.length / chunkSize.toInt : ℚ)⌉₊

theorem string_cut_into_chunks (str : StdString) (chunkSize : Int64) :
    ∃ chunks last, CutsIntoChunks str chunkSize chunks last := by
  have bound := str.length_lt
  have initial : ChunksBefore str.bytes chunkSize.toInt 0 { prev := 0, chunks := [] } :=
    { behind := .inr ⟨rfl, rfl⟩
      near := fun positive => by push_cast; omega
      joined := rfl
      sized := by simp
      counted := by simp }
  obtain ⟨state, run, before⟩ := foldlM_range_rule
    (fun idx inside state before => before.round bound inside) initial
  have le := before.prev_le
  refine ⟨state.chunks, str.bytes.drop state.prev, ?_⟩
  exact
    { returned := by
        rw [stringToChunks, run, ok_bind, between_eq bound le (Nat.le_refl _), ok_bind,
          slice_length]
      joined := by
        rw [List.flatten_append, before.joined, List.flatten_singleton, List.take_append_drop]
      sized := fun _ => before.sized
      last_le := by
        intro positive
        have near := before.near positive
        rw [List.length_drop]
        omega
      last_nonempty := by
        intro _ nonempty
        have some := List.length_pos_iff.mpr nonempty
        rw [List.length_drop]
        rcases before.behind with less | ⟨zero, -⟩
        · omega
        · omega
      counted := by
        intro positive
        obtain ⟨size, sizeEq⟩ := Int.eq_ofNat_of_zero_le (Int.le_of_lt positive)
        have counted := before.counted
        have near := before.near positive
        rw [sizeEq] at positive counted near ⊢
        have countedNat : state.prev = state.chunks.length * size := by exact_mod_cast counted
        rw [List.length_append, List.length_singleton, Int.cast_natCast]
        apply length_eq_ceil (by omega)
        · rw [← countedNat]
          exact before.behind
        · rw [← countedNat]
          omega }

end StringUtilities

end ExchangeConnectivity
