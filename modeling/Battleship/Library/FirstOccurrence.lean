import Mathlib.Order.Basic
import Mathlib.Tactic

/-! Lists whose elements come up for the first time in increasing order; they may be
repeated at any place afterwards. -/
namespace FirstOccurrence

variable {α : Type} [Preorder α]

def Increasing (l : List α) : Prop :=
  ∀ before x after, l = before ++ x :: after → x ∉ before → ∀ y ∈ before, y < x

theorem increasing_nil : Increasing ([] : List α) := by
  intro before x after split
  cases before <;> cases split

theorem Increasing.of_append {l l' : List α} (increasing : Increasing (l ++ l')) : Increasing l := by
  intro before x after split new
  exact increasing before x (after ++ l') (by rw [split, List.append_assoc, List.cons_append]) new

theorem increasing_snoc {l : List α} {x : α} :
    Increasing (l ++ [x]) ↔ Increasing l ∧ (x ∈ l ∨ ∀ y ∈ l, y < x) := by
  constructor
  · intro increasing
    refine ⟨increasing.of_append, ?_⟩
    by_cases seen : x ∈ l
    · exact .inl seen
    · exact .inr (increasing l x [] rfl seen)
  · rintro ⟨increasing, last⟩ before y after split new z inside
    induction after using List.reverseRecOn with
    | nil =>
        obtain ⟨rfl, same⟩ := List.append_inj' split rfl
        obtain rfl : x = y := by simpa using same
        exact last.resolve_left new z inside
    | append_singleton after y' _ =>
        rw [← List.cons_append, ← List.append_assoc] at split
        exact increasing before y after (List.append_inj' split rfl).1 new z inside

theorem Increasing.repeat_end {l l' : List α} (increasing : Increasing l)
    (seen : ∀ x ∈ l', x ∈ l) : Increasing (l ++ l') := by
  induction l' using List.reverseRecOn with
  | nil => rwa [List.append_nil]
  | append_singleton l' x ih =>
      rw [← List.append_assoc]
      refine increasing_snoc.mpr ⟨ih fun y member => seen y (List.mem_append_left _ member), .inl ?_⟩
      exact List.mem_append_left _ (seen x (List.mem_append_right _ (List.mem_singleton_self x)))

theorem Increasing.repeat_between {l l' : List α} {x : α} (increasing : Increasing (l ++ l'))
    (seen : x ∈ l) : Increasing (l ++ x :: l') := by
  induction l' using List.reverseRecOn with
  | nil =>
      rw [List.append_nil] at increasing
      exact increasing_snoc.mpr ⟨increasing, .inl seen⟩
  | append_singleton l' y ih =>
      rw [← List.append_assoc] at increasing
      obtain ⟨before, last⟩ := increasing_snoc.mp increasing
      rw [← List.cons_append, ← List.append_assoc]
      refine increasing_snoc.mpr ⟨ih before, ?_⟩
      have same (z : α) : z ∈ l ++ x :: l' ↔ z ∈ l ++ l' := by
        simp only [List.mem_append, List.mem_cons]
        constructor
        · rintro (inside | rfl | inside)
          · exact .inl inside
          · exact .inl seen
          · exact .inr inside
        · rintro (inside | inside)
          · exact .inl inside
          · exact .inr (.inr inside)
      simpa only [same] using last

end FirstOccurrence
