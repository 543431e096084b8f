import Mathlib.Data.Nat.Digits.Defs
import Mathlib.Tactic

/-! Numbers as fixed-width little-endian byte strings. -/
namespace LittleEndian

/-- The low `width` bytes of a number, least significant first. -/
def bytes : Nat → Nat → List UInt8
  | 0, _ => []
  | width + 1, number => UInt8.ofNat number :: bytes width (number / 256)

def value (data : List UInt8) : Nat := Nat.ofDigits 256 (data.map UInt8.toNat)

@[simp] theorem bytes_length (width number : Nat) : (bytes width number).length = width := by
  induction width generalizing number with
  | zero => rfl
  | succ width ih => simp [bytes, ih]

@[simp] theorem value_nil : value [] = 0 := rfl

@[simp] theorem value_cons (byte : UInt8) (rest : List UInt8) :
    value (byte :: rest) = byte.toNat + 256 * value rest := by
  simp [value, Nat.ofDigits_cons]

theorem value_bytes (width number : Nat) : value (bytes width number) = number % 256 ^ width := by
  induction width generalizing number with
  | zero => simp [bytes, Nat.mod_one]
  | succ width ih =>
      simp only [bytes, value_cons, ih, UInt8.toNat_ofNat']
      rw [show 256 ^ (width + 1) = 256 * 256 ^ width from pow_succ' 256 width, Nat.mod_mul]

theorem value_bytes_of_lt {width number : Nat} (fits : number < 256 ^ width) :
    value (bytes width number) = number := by
  rw [value_bytes, Nat.mod_eq_of_lt fits]

theorem value_lt (data : List UInt8) : value data < 256 ^ data.length := by
  have digits : ∀ digit ∈ data.map UInt8.toNat, digit < 256 := by
    intro digit member
    obtain ⟨byte, _, rfl⟩ := List.mem_map.mp member
    exact byte.toNat_lt
  simpa [value] using Nat.ofDigits_lt_base_pow_length (by decide : 1 < 256) digits

theorem bytes_value (data : List UInt8) : bytes data.length (value data) = data := by
  induction data with
  | nil => rfl
  | cons byte rest ih =>
      have low := byte.toNat_lt
      have quotient : (byte.toNat + 256 * value rest) / 256 = value rest := by omega
      have digit : UInt8.ofNat (byte.toNat + 256 * value rest) = byte := by
        apply UInt8.toNat_inj.mp
        simp only [UInt8.toNat_ofNat']
        omega
      simp only [List.length_cons, bytes, value_cons, quotient, digit, ih]

end LittleEndian
