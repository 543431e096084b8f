import Mathlib.Algebra.Order.Ring.Int
import Mathlib.Algebra.BigOperators.Group.List.Basic
import Mathlib.Tactic

/-! A position between two bounds that goes on at the other end when it is moved out of
them: moved by one each time, it counts modulo the width. -/
namespace Wraparound

/-- Below `lo` it goes on at the upper end, from `hi` on at the lower. -/
def wrap (lo hi pos : Int) : Int :=
  let pos := if pos < lo then hi - 1 else pos
  if hi ≤ pos then lo else pos

def walk (lo hi start : Int) (moves : List Int) : Int :=
  moves.foldl (fun pos move => wrap lo hi (pos + move)) start

section Bounds

variable {lo hi : Int}

theorem wrap_within (wide : lo < hi) (pos : Int) : lo ≤ wrap lo hi pos ∧ wrap lo hi pos < hi := by
  unfold wrap
  dsimp only
  split_ifs <;> omega

theorem wrap_inside {pos : Int} (low : lo ≤ pos) (high : pos < hi) : wrap lo hi pos = pos := by
  unfold wrap
  rw [if_neg (Int.not_lt.mpr low), if_neg (Int.not_le.mpr high)]

theorem wrap_eq (wide : lo < hi) {pos : Int} (low : lo - 1 ≤ pos) (high : pos ≤ hi) :
    wrap lo hi pos = lo + (pos - lo) % (hi - lo) := by
  unfold wrap
  rcases lt_or_ge pos lo with below | above
  · have last : (pos - lo) % (hi - lo) = hi - lo - 1 := by
      rw [show pos - lo = hi - lo - 1 + (hi - lo) * (-1) by omega, Int.add_mul_emod_self_left]
      exact Int.emod_eq_of_lt (by omega) (by omega)
    rw [if_pos below, if_neg (by omega), last]
    omega
  · rw [if_neg (Int.not_lt.mpr above)]
    rcases eq_or_lt_of_le high with rfl | inside
    · rw [if_pos le_rfl, Int.emod_self, Int.add_zero]
    · rw [if_neg (Int.not_le.mpr inside), Int.emod_eq_of_lt (by omega) (by omega)]
      omega

theorem walk_within (wide : lo < hi) {start : Int} (low : lo ≤ start) (high : start < hi)
    (moves : List Int) : lo ≤ walk lo hi start moves ∧ walk lo hi start moves < hi := by
  induction moves using List.reverseRecOn with
  | nil => exact ⟨low, high⟩
  | append_singleton moves move _ =>
      rw [walk, List.foldl_append]
      exact wrap_within wide _

theorem walk_eq (wide : lo < hi) {start : Int} (low : lo ≤ start) (high : start < hi)
    {moves : List Int} (small : ∀ move ∈ moves, -1 ≤ move ∧ move ≤ 1) :
    walk lo hi start moves = lo + (start - lo + moves.sum) % (hi - lo) := by
  induction moves using List.reverseRecOn with
  | nil =>
      have within : (start - lo) % (hi - lo) = start - lo :=
        Int.emod_eq_of_lt (by omega) (by omega)
      simp only [walk, List.foldl_nil, List.sum_nil, Int.add_zero, within]
      omega
  | append_singleton moves move ih =>
      have here := ih fun move' member => small move' (List.mem_append_left _ member)
      have last := small move (List.mem_append_right _ (List.mem_singleton_self move))
      have before := walk_within wide low high moves
      have step : walk lo hi start (moves ++ [move]) = wrap lo hi (walk lo hi start moves + move) := by
        simp only [walk, List.foldl_append, List.foldl_cons, List.foldl_nil]
      rw [step, wrap_eq wide (by omega) (by omega), here, List.sum_append, List.sum_singleton]
      rw [show lo + (start - lo + moves.sum) % (hi - lo) + move - lo =
        (start - lo + moves.sum) % (hi - lo) + move by omega, Int.emod_add_emod, Int.add_assoc]

end Bounds

end Wraparound
