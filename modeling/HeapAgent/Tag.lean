import Mathlib.Data.Nat.Bitwise

/-! Object tags as `heap_tagging_cb` composes them: the low 32 bits of the epoch
above the low 32 bits of the local counter, read as an unsigned 64-bit value.
Tags are compared only for equality, so the `jlong` and its `uint64_t` bit
pattern are interchangeable; we keep the unsigned reading. -/

namespace HeapAgent

/-- `(((uint64_t)(uint32_t)g_epoch) << 32) | ((uint64_t)local & 0xFFFFFFFFULL)`. -/
def composeTag (epoch counter : Nat) : Nat :=
  ((epoch % 2 ^ 32) <<< 32) ||| (counter &&& 0xFFFFFFFF)

/-- The epoch half of a tag. -/
def tagEpoch (tag : Nat) : Nat := tag / 2 ^ 32

/-- The counter half of a tag. -/
def tagCounter (tag : Nat) : Nat := tag % 2 ^ 32

theorem composeTag_eq (epoch counter : Nat) :
    composeTag epoch counter = 2 ^ 32 * (epoch % 2 ^ 32) + counter % 2 ^ 32 := by
  have low : counter &&& 0xFFFFFFFF = counter % 2 ^ 32 := Nat.and_pow_two_sub_one_eq_mod counter 32
  rw [composeTag, low, Nat.shiftLeft_eq, Nat.mul_comm,
    Nat.mul_add_lt_is_or (Nat.mod_lt _ (Nat.two_pow_pos 32))]

@[simp] theorem tagEpoch_composeTag (epoch counter : Nat) :
    tagEpoch (composeTag epoch counter) = epoch % 2 ^ 32 := by
  rw [tagEpoch, composeTag_eq]
  omega

@[simp] theorem tagCounter_composeTag (epoch counter : Nat) :
    tagCounter (composeTag epoch counter) = counter % 2 ^ 32 := by
  rw [tagCounter, composeTag_eq]
  omega

/-- Every composed tag fits the 64-bit slot. -/
theorem composeTag_lt (epoch counter : Nat) : composeTag epoch counter < 2 ^ 64 := by
  rw [composeTag_eq]
  omega

/-- A tag is its two halves, so two tags agree exactly when both halves do. -/
theorem composeTag_inj {epoch counter epoch' counter' : Nat} :
    composeTag epoch counter = composeTag epoch' counter' ↔
      epoch % 2 ^ 32 = epoch' % 2 ^ 32 ∧ counter % 2 ^ 32 = counter' % 2 ^ 32 := by
  rw [composeTag_eq, composeTag_eq]
  omega

/-- A nonzero epoch half keeps the tag away from the reserved value 0. -/
theorem composeTag_ne_zero {epoch : Nat} (counter : Nat) (live : epoch % 2 ^ 32 ≠ 0) :
    composeTag epoch counter ≠ 0 := by
  rw [composeTag_eq]
  omega

/-- A counter value below `2 ^ 32` passes the mask unchanged. -/
theorem composeTag_of_lt (epoch : Nat) {counter : Nat} (small : counter < 2 ^ 32) :
    composeTag epoch counter = ((epoch % 2 ^ 32) <<< 32) ||| counter := by
  rw [composeTag, show (0xFFFFFFFF : Nat) = 2 ^ 32 - 1 from rfl, Nat.and_pow_two_sub_one_eq_mod, Nat.mod_eq_of_lt small]

end HeapAgent
