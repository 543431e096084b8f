import Battleship.Library.SlotTable
import Mathlib.Data.List.ReduceOption

/-! A walk along a table of slots that ends when it has met as many elements as were
counted before it began. The index has no bound of its own, and what is done with
an element may change the table under the walk. -/
namespace SlotTable

variable {State Fault α : Type}

inductive Stop (Fault : Type) where
  | outOfFuel
  | fault (reason : Fault)
  deriving DecidableEq

def walk (table : State → List (Option α)) (visit : State → α → Except (Stop Fault) State) :
    Nat → Nat → Int → State → Except (Stop Fault) State
  | 0, _, _, _ => .error .outOfFuel
  | fuel + 1, i, unprocessed, s =>
      if unprocessed > 0 then
        match (table s)[i]?.join with
        | none => walk table visit fuel (i + 1) unprocessed s
        | some x => do
            let s ← visit s x
            walk table visit fuel (i + 1) (unprocessed - 1) s
      else .ok s

structure Beside (x : α) (slots slots' : List (Option α)) : Prop where
  length : slots'.length = slots.length
  same : ∀ j : Nat, slots[j]? ≠ some (some x) → slots'[j]? = slots[j]?

theorem Beside.refl (x : α) (slots : List (Option α)) : Beside x slots slots :=
  ⟨rfl, fun _ _ => rfl⟩

theorem Beside.trans {x : α} {slots slots' slots'' : List (Option α)}
    (first : Beside x slots slots') (second : Beside x slots' slots'') :
    Beside x slots slots'' := by
  refine ⟨second.length.trans first.length, fun j other => ?_⟩
  have same := first.same j other
  exact (second.same j (same ▸ other)).trans same

theorem beside_erase [DecidableEq α] (x : α) (slots : List (Option α)) :
    Beside x slots (erase slots x) := by
  rcases erase_spec slots x with ⟨_, unchanged⟩ | ⟨pos, at_pos, changed⟩
  · rw [unchanged]
    exact .refl x slots
  · rw [changed]
    refine ⟨List.length_set, fun j other => ?_⟩
    refine List.getElem?_set_ne ?_
    rintro rfl
    exact other at_pos

theorem Beside.of_absent {x : α} {slots slots' : List (Option α)} (beside : Beside x slots slots')
    (absent : some x ∉ slots) : slots' = slots :=
  List.ext_getElem? fun j => beside.same j fun here => absent (List.mem_of_getElem? here)

/-- An element that the table holds once leaves the slots behind it as they were. -/
theorem Beside.drop {x : α} {slots slots' : List (Option α)} {size : Nat} {Member : α → Prop}
    (beside : Beside x slots slots') (holds : Holds slots size Member) {i : Nat}
    (here : slots[i]? = some (some x)) : slots'.drop (i + 1) = slots.drop (i + 1) := by
  refine List.ext_getElem? fun j => ?_
  rw [List.getElem?_drop, List.getElem?_drop]
  refine beside.same _ fun again => ?_
  have := holds.once _ _ x here again
  omega

theorem Holds.nodup_reduceOption {slots : List (Option α)} {size : Nat} {Member : α → Prop}
    (holds : Holds slots size Member) : slots.reduceOption.Nodup := by
  refine (List.pairwise_filterMap ..).mpr (List.pairwise_iff_getElem.mpr ?_)
  intro i j inside inside' before x at_i y at_j same
  subst same
  have value (k : Nat) (inside : k < slots.length) (at_k : slots[k] = some x) :
      slots[k]? = some (some x) := (List.getElem?_eq_getElem inside).trans (congrArg some at_k)
  have := holds.once i j x (value i inside at_i) (value j inside' at_j)
  omega

theorem Holds.mem_reduceOption {slots : List (Option α)} {size : Nat} {Member : α → Prop}
    (holds : Holds slots size Member) {x : α} : x ∈ slots.reduceOption ↔ Member x :=
  List.reduceOption_mem_iff.trans (holds.mem x)

theorem count_reduceOption [DecidableEq α] (slots : List (Option α)) (x : α) :
    slots.reduceOption.count x = slots.count (some x) := by
  induction slots with
  | nil => rfl
  | cons slot slots ih =>
      cases slot with
      | none => simpa [List.reduceOption_cons_of_none, List.count_cons] using ih
      | some y => simp [List.reduceOption_cons_of_some, List.count_cons, ih]

/-- Where each visit succeeds and leaves the slots behind the current one alone, the walk
ends, and it has visited what those slots held when it began, each once and in their
order. -/
theorem walk_ends (table : State → List (Option α))
    (visit : State → α → Except (Stop Fault) State) (Inv : State → Prop)
    (visits : ∀ s i x, Inv s → (table s)[i]? = some (some x) → ∃ s', visit s x = .ok s' ∧
      Inv s' ∧ (table s').drop (i + 1) = (table s).drop (i + 1))
    {s : State} (inv : Inv s) {fuel i : Nat} (enough : (table s).length - i < fuel) :
    ∃ s', walk table visit fuel i (occupied ((table s).drop i)) s = .ok s' ∧
      ((table s).drop i).reduceOption.foldlM visit s = .ok s' ∧ Inv s' := by
  induction fuel generalizing s i with
  | zero => exact absurd enough (Nat.not_lt_zero _)
  | succ fuel ih =>
      unfold walk
      by_cases inside : i < (table s).length
      · have slots := List.drop_eq_getElem_cons inside
        cases here : (table s)[i] with
        | none =>
            rw [here] at slots
            obtain ⟨s', ended, met, inv'⟩ := ih inv (i := i + 1) (by omega)
            refine ⟨s', ?_, by rwa [slots, List.reduceOption_cons_of_none], inv'⟩
            have same : occupied ((table s).drop i) = occupied ((table s).drop (i + 1)) := by
              simp [slots, occupied]
            rw [same]
            split_ifs with more
            · rw [List.getElem?_eq_getElem inside, here]
              exact ended
            · -- nothing is left to be met
              rw [← ended]
              have left : (table s).length - (i + 1) < fuel := by omega
              cases fuel with
              | zero => exact absurd left (Nat.not_lt_zero _)
              | succ fuel => rw [walk, if_neg more]
        | some x =>
            rw [here] at slots
            have at_i : (table s)[i]? = some (some x) := by
              rw [List.getElem?_eq_getElem inside, here]
            obtain ⟨s₁, visited, inv₁, behind⟩ := visits s i x inv at_i
            have length := congrArg List.length behind
            simp only [List.length_drop] at length
            obtain ⟨s', ended, met, inv'⟩ := ih inv₁ (i := i + 1) (by omega)
            have count : occupied ((table s).drop i) = occupied ((table s₁).drop (i + 1)) + 1 := by
              simp [slots, behind, occupied]
            refine ⟨s', ?_, ?_, inv'⟩
            · rw [if_pos (by omega), at_i]
              simp only [Option.join_some, visited, Bind.bind, Except.bind, count]
              simpa using ended
            · rw [slots, List.reduceOption_cons_of_some, List.foldlM_cons, visited, ← behind]
              exact met
      · have empty : (table s).drop i = [] := List.drop_eq_nil_of_le (Nat.not_lt.mp inside)
        rw [empty]
        exact ⟨s, by simp [occupied], rfl, inv⟩

theorem walk_const (Fault : Type) (slots : List (Option α)) (visit : State → α → State) (s : State) {fuel : Nat}
    (enough : slots.length < fuel) :
    walk (fun _ => slots) (fun s x => (.ok (visit s x) : Except (Stop Fault) State)) fuel 0
      (occupied slots) s = .ok (slots.reduceOption.foldl visit s) := by
  obtain ⟨s', ended, met, _⟩ := walk_ends (fun _ => slots)
    (fun s x => (.ok (visit s x) : Except (Stop Fault) State)) (fun _ => True)
    (fun s i x _ _ => ⟨visit s x, rfl, trivial, rfl⟩) (s := s) trivial (i := 0) enough
  have folded := List.foldlM_pure (m := Except (Stop Fault)) (f := visit) (b := s)
    (l := slots.reduceOption)
  exact ended.trans (met.symm.trans folded)

end SlotTable
