import Mathlib.Tactic

/-!
# Slots in rotation

Time is cut into slots of equal length, and the slots take turns: `slotAt` is the place of an instant
in the rotation. The quotient is rounded towards zero, as machine division does, so the slot around
the instant zero is nearly twice as long as the others. The rotation is in order all the same
(`slotAt_succ`), and one round of time meets every slot (`exists_slotAt`).
-/

set_option autoImplicit false

namespace Vx6.Lib

/-- The place in a rotation of `slots` slots, each of the given length, at the instant `u`. -/
def slotAt (length : Int) (slots : Nat) (u : Int) : Int := u.tdiv length % slots

section Rotation

variable {length : Int} {slots : Nat}

theorem slotAt_nonneg (length : Int) (hslots : 0 < slots) (u : Int) : 0 ≤ slotAt length slots u :=
  Int.emod_nonneg _ (by omega)

theorem slotAt_lt (length : Int) (hslots : 0 < slots) (u : Int) : slotAt length slots u < slots :=
  Int.emod_lt_of_pos _ (by omega)

/-- The remainder of machine division, brought back above zero. -/
theorem wrap_tmod {n : Int} (hn : 0 < n) (q : Int) :
    (if q.tmod n < 0 then q.tmod n + n else q.tmod n) = q % n := by
  have hsplit := Int.mul_tdiv_add_tmod q n
  have hlt := Int.tmod_lt_of_pos q hn
  have hgt := Int.lt_tmod_of_pos q hn
  have hmod : q % n = q.tmod n % n := by
    conv_lhs => rw [← hsplit, Int.add_comm, Int.add_mul_emod_self_left]
  rw [hmod]
  split_ifs with hneg
  · rw [← Int.add_emod_right, Int.emod_eq_of_lt (by omega) (by omega)]
  · rw [Int.emod_eq_of_lt (by omega) hlt]

/-- An instant is less than one slot away from the start of its slot. -/
theorem tdiv_near (hlength : 0 < length) (u : Int) :
    u.tdiv length * length - length < u ∧ u < u.tdiv length * length + length := by
  have hsplit := Int.mul_tdiv_add_tmod u length
  have hlt := Int.tmod_lt_of_pos u hlength
  have hgt := Int.lt_tmod_of_pos u hlength
  rw [Int.mul_comm] at hsplit
  constructor <;> omega

/-- Within one unit of time the quotient stays or goes up by one. -/
theorem tdiv_succ (hlength : 0 < length) (u : Int) :
    (u + 1).tdiv length = u.tdiv length ∨ (u + 1).tdiv length = u.tdiv length + 1 := by
  have hmono : u.tdiv length ≤ (u + 1).tdiv length := Int.tdiv_le_tdiv hlength (by omega)
  obtain ⟨-, hu⟩ := tdiv_near hlength u
  obtain ⟨hu', -⟩ := tdiv_near hlength (u + 1)
  have hle : (u + 1).tdiv length ≤ u.tdiv length + 1 := by
    by_contra hgt
    have hmul : (u.tdiv length + 2) * length ≤ (u + 1).tdiv length * length :=
      Int.mul_le_mul_of_nonneg_right (by omega) hlength.le
    have hexpand : (u.tdiv length + 2) * length = u.tdiv length * length + 2 * length := by ring
    omega
  omega

/-- The rotation goes on to the next slot or stays where it is. -/
theorem slotAt_succ (hlength : 0 < length) (u : Int) :
    slotAt length slots (u + 1) = slotAt length slots u ∨
      slotAt length slots (u + 1) = (slotAt length slots u + 1) % slots := by
  rcases tdiv_succ hlength u with h | h
  · exact .inl (by rw [slotAt, h, slotAt])
  · refine .inr ?_
    rw [slotAt, h, slotAt, Int.emod_add_emod]

/-- Of `slots` quotients in a row, each one is taken within one round. -/
theorem exists_tdiv (hlength : 0 < length) {u q : Int} (hfirst : u.tdiv length ≤ q)
    (hlast : q < u.tdiv length + slots) : ∃ x, u ≤ x ∧ x < u + slots * length ∧ x.tdiv length = q := by
  obtain ⟨hlow, hhigh⟩ := tdiv_near hlength u
  rcases eq_or_lt_of_le hfirst with rfl | hlt
  · have hround : length ≤ slots * length := by
      have hone : (1 : Int) ≤ slots := by omega
      nlinarith
    exact ⟨u, le_rfl, by omega, rfl⟩
  · -- a later quotient is taken at the start of its slot
    have hstart : (u.tdiv length + 1) * length ≤ q * length :=
      Int.mul_le_mul_of_nonneg_right (by omega) hlength.le
    have hend : q * length ≤ (u.tdiv length + slots - 1) * length :=
      Int.mul_le_mul_of_nonneg_right (by omega) hlength.le
    have hstart' : (u.tdiv length + 1) * length = u.tdiv length * length + length := by ring
    have hend' : (u.tdiv length + slots - 1) * length = u.tdiv length * length +
        slots * length - length := by
      ring
    exact ⟨q * length, by omega, by omega, Int.mul_tdiv_cancel q hlength.ne'⟩

/-- One round of time meets every slot. -/
theorem exists_slotAt (hlength : 0 < length) (u : Int) {i : Int} (hi : 0 ≤ i) (hlt : i < slots) :
    ∃ x, u ≤ x ∧ x < u + slots * length ∧ slotAt length slots x = i := by
  have hslots : (0 : Int) < slots := by omega
  -- the quotient that is `i` further on, counted from the start of the round
  have hstep : 0 ≤ (i - u.tdiv length) % slots := Int.emod_nonneg _ hslots.ne'
  have hstep' : (i - u.tdiv length) % slots < slots := Int.emod_lt_of_pos _ hslots
  have hfirst : u.tdiv length ≤ u.tdiv length + (i - u.tdiv length) % slots := by omega
  have hlast : u.tdiv length + (i - u.tdiv length) % slots < u.tdiv length + slots := by omega
  obtain ⟨x, hux, hxu, hx⟩ := exists_tdiv hlength hfirst hlast
  refine ⟨x, hux, hxu, ?_⟩
  rw [slotAt, hx, Int.add_emod_emod, add_sub_cancel, Int.emod_eq_of_lt hi hlt]

end Rotation

end Vx6.Lib
