import Mathlib.Data.Fintype.Card
import Mathlib.Tactic

/-! A table with a fixed number of slots, each empty or holding one element, as a
finite set: an element is put into the first empty slot and erased from the slot
that holds it. -/
namespace SlotTable

variable {α : Type}

def put (slots : List (Option α)) (x : α) : Option (List (Option α)) :=
  (slots.findIdx? Option.isNone).map fun pos => slots.set pos (some x)

def erase [DecidableEq α] (slots : List (Option α)) (x : α) : List (Option α) :=
  match slots.findIdx? (fun slot => slot = some x) with
  | none => slots
  | some pos => slots.set pos none

/-- The table of `size` slots holds exactly the elements of `Member`, each once. -/
structure Holds (slots : List (Option α)) (size : Nat) (Member : α → Prop) : Prop where
  length : slots.length = size
  once : ∀ (i j : Nat) (x : α), slots[i]? = some (some x) → slots[j]? = some (some x) → i = j
  mem : ∀ x, some x ∈ slots ↔ Member x

def occupied (slots : List (Option α)) : Nat := slots.countP Option.isSome

theorem holds_replicate (size : Nat) :
    Holds (List.replicate size (none : Option α)) size fun _ => False := by
  refine ⟨by simp, fun i j x at_i _ => ?_, by simp⟩
  simp [List.getElem?_replicate] at at_i

theorem Holds.congr {slots : List (Option α)} {size : Nat} {Member Member' : α → Prop}
    (holds : Holds slots size Member) (same : ∀ x, Member x ↔ Member' x) :
    Holds slots size Member' :=
  ⟨holds.length, holds.once, fun x => (holds.mem x).trans (same x)⟩

theorem put_eq_none {slots : List (Option α)} {x : α} :
    put slots x = none ↔ ∀ slot ∈ slots, slot.isSome := by
  simp only [put, Option.map_eq_none_iff, List.findIdx?_eq_none_iff]
  refine forall_congr' fun slot => forall_congr' fun _ => ?_
  cases slot <;> simp

theorem put_spec {slots slots' : List (Option α)} {x : α} (stored : put slots x = some slots') :
    ∃ pos, slots[pos]? = some none ∧ slots' = slots.set pos (some x) := by
  simp only [put, Option.map_eq_some_iff] at stored
  obtain ⟨pos, found, rfl⟩ := stored
  obtain ⟨inside, empty, _⟩ := List.findIdx?_eq_some_iff_getElem.mp found
  refine ⟨pos, ?_, rfl⟩
  rw [List.getElem?_eq_getElem inside]
  exact congrArg some (by simpa using empty)

theorem erase_spec [DecidableEq α] (slots : List (Option α)) (x : α) :
    (some x ∉ slots ∧ erase slots x = slots) ∨
      ∃ pos, slots[pos]? = some (some x) ∧ erase slots x = slots.set pos none := by
  unfold erase
  cases found : slots.findIdx? (fun slot => decide (slot = some x)) with
  | none =>
      refine Or.inl ⟨fun member => ?_, rfl⟩
      have := List.findIdx?_eq_none_iff.mp found (some x) member
      simp at this
  | some pos =>
      obtain ⟨inside, here, _⟩ := List.findIdx?_eq_some_iff_getElem.mp found
      refine Or.inr ⟨pos, ?_, rfl⟩
      rw [List.getElem?_eq_getElem inside]
      exact congrArg some (by simpa using here)

theorem Holds.put {slots slots' : List (Option α)} {size : Nat} {Member : α → Prop} {x : α}
    (holds : Holds slots size Member) (fresh : ¬ Member x)
    (stored : put slots x = some slots') : Holds slots' size fun y => Member y ∨ y = x := by
  obtain ⟨pos, empty, rfl⟩ := put_spec stored
  have inside : pos < slots.length := (List.getElem?_eq_some_iff.mp empty).1
  have absent : ∀ i, slots[i]? ≠ some (some x) := fun i here =>
    fresh ((holds.mem x).mp (List.mem_of_getElem? here))
  refine ⟨by simp [holds.length], fun i j y at_i at_j => ?_, fun y => ?_⟩
  · rw [List.getElem?_set] at at_i at_j
    split_ifs at at_i at_j with here there
    · exact here.symm.trans there
    · obtain rfl : x = y := by simpa [inside] using at_i
      exact absurd at_j (absent j)
    · obtain rfl : x = y := by simpa [inside] using at_j
      exact absurd at_i (absent i)
    · exact holds.once i j y at_i at_j
  · rw [← holds.mem y]
    constructor
    · intro member
      rcases List.mem_or_eq_of_mem_set member with old | new
      · exact Or.inl old
      · exact Or.inr (Option.some.inj new)
    · rintro (old | rfl)
      · obtain ⟨i, at_i⟩ := List.mem_iff_getElem?.mp old
        have different : pos ≠ i := by
          rintro rfl
          simp [empty] at at_i
        exact List.mem_of_getElem? (i := i) (by simp [different, at_i])
      · exact List.mem_of_getElem? (i := pos) (by simp [inside])

theorem Holds.erase [DecidableEq α] {slots : List (Option α)} {size : Nat} {Member : α → Prop}
    (holds : Holds slots size Member) (x : α) :
    Holds (erase slots x) size fun y => Member y ∧ y ≠ x := by
  rcases erase_spec slots x with ⟨absent, same⟩ | ⟨pos, here, changed⟩
  · rw [same]
    refine holds.congr fun y => ⟨fun member => ⟨member, ?_⟩, fun both => both.1⟩
    rintro rfl
    exact absent ((holds.mem y).mpr member)
  · rw [changed]
    have inside : pos < slots.length := (List.getElem?_eq_some_iff.mp here).1
    refine ⟨by simp [holds.length], fun i j y at_i at_j => ?_, fun y => ?_⟩
    · rw [List.getElem?_set] at at_i at_j
      split_ifs at at_i at_j <;> first | exact holds.once i j y at_i at_j | cases at_i | cases at_j
    · rw [← holds.mem y]
      constructor
      · intro member
        obtain ⟨i, at_i⟩ := List.mem_iff_getElem?.mp member
        rw [List.getElem?_set] at at_i
        split_ifs at at_i with same
        · cases at_i
        refine ⟨List.mem_of_getElem? at_i, ?_⟩
        rintro rfl
        exact same (holds.once _ _ _ here at_i)
      · rintro ⟨member, different⟩
        obtain ⟨i, at_i⟩ := List.mem_iff_getElem?.mp member
        have apart : pos ≠ i := by
          rintro rfl
          exact different (by simpa [here] using at_i.symm)
        exact List.mem_of_getElem? (i := i) (by simp [apart, at_i])

theorem occupied_put {slots slots' : List (Option α)} {x : α}
    (stored : put slots x = some slots') : occupied slots' = occupied slots + 1 := by
  obtain ⟨pos, empty, rfl⟩ := put_spec stored
  obtain ⟨inside, value⟩ := List.getElem?_eq_some_iff.mp empty
  simp [occupied, List.countP_set inside, value]

theorem occupied_erase [DecidableEq α] {slots : List (Option α)} {x : α}
    (member : some x ∈ slots) :
    occupied (erase slots x) + 1 = occupied slots := by
  rcases erase_spec slots x with ⟨absent, _⟩ | ⟨pos, here, changed⟩
  · exact absurd member absent
  · obtain ⟨inside, value⟩ := List.getElem?_eq_some_iff.mp here
    have positive : 0 < occupied slots :=
      List.countP_pos_iff.mpr ⟨some x, member, rfl⟩
    rw [changed]
    simp only [occupied, List.countP_set inside, value] at positive ⊢
    simp only [Option.isSome_some, Option.isSome_none, ↓reduceIte, Bool.false_eq_true,
      Nat.add_zero]
    omega

/-- A table as large as a finite set of places into which its elements can be
told apart has an empty slot as long as some place is free. -/
theorem Holds.put_of_free {Place : Type} [Fintype Place] {slots : List (Option α)} {size : Nat}
    {Member : α → Prop} (holds : Holds slots size Member) (large : Fintype.card Place ≤ size)
    (place : α → Place) (apart : ∀ x y, Member x → Member y → place x = place y → x = y)
    (free : Place) (unused : ∀ x, Member x → place x ≠ free) (x : α) :
    ∃ slots', SlotTable.put slots x = some slots' := by
  refine Option.ne_none_iff_exists'.mp fun full => ?_
  have taken := put_eq_none.mp full
  have value (i : Fin slots.length) : ∃ y, slots[i.val]? = some (some y) := by
    have member : slots[i] ∈ slots := List.getElem_mem i.isLt
    obtain ⟨y, here⟩ := Option.isSome_iff_exists.mp (taken _ member)
    exact ⟨y, (List.getElem?_eq_getElem i.isLt).trans (congrArg some here)⟩
  choose element at_element using value
  have member (i : Fin slots.length) : Member (element i) :=
    (holds.mem _).mp (List.mem_of_getElem? (at_element i))
  have injective : Function.Injective fun i => place (element i) := by
    intro i j same
    have equal := apart _ _ (member i) (member j) same
    exact Fin.ext (holds.once i j (element i) (at_element i) (equal ▸ at_element j))
  have onto : Function.Surjective fun i => place (element i) := by
    refine ((Fintype.bijective_iff_injective_and_card _).mpr ⟨injective, ?_⟩).2
    have fewer := Fintype.card_le_of_injective _ injective
    have := holds.length
    simp only [Fintype.card_fin] at fewer ⊢
    omega
  obtain ⟨i, here⟩ := onto free
  exact unused _ (member i) here

end SlotTable
