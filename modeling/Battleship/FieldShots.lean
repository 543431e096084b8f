import Battleship.GameField

/-! What a shot does to a field. A successful shot writes one cell that was not
tried before; marking the water around a sunk ship afterwards only turns empty
cells into missed ones. So the ship cells that are still whole and those that
are hit can be counted along any sequence of shots. -/
namespace Battleship.GameField

theorem inside_iff {point : Point} :
    Inside point ↔ ∃ (y x : Fin fldSz), point = ⟨(x.val : Int), (y.val : Int)⟩ := by
  constructor
  · rintro ⟨lowX, highX, lowY, highY⟩
    refine ⟨⟨point.y.toNat, by omega⟩, ⟨point.x.toNat, by omega⟩, ?_⟩
    ext <;> simp <;> omega
  · rintro ⟨y, x, rfl⟩
    have := y.isLt
    have := x.isLt
    exact ⟨by simp, by simp, by simp, by simp⟩

@[simp] theorem inside_cell (y x : Fin fldSz) : Inside ⟨(x.val : Int), (y.val : Int)⟩ :=
  inside_iff.mpr ⟨y, x, rfl⟩

@[simp] theorem contains_iff {point : Point} : contains point = true ↔ Inside point := by
  simp [contains]

@[simp] theorem at'_cell (f : GameField) (y x : Fin fldSz) :
    f.at' ⟨(x.val : Int), (y.val : Int)⟩ = f.field y x := by
  simp [at']

theorem put_cell (f : GameField) (y x y' x' : Fin fldSz) (cell : Cell) :
    (f.put ⟨(x.val : Int), (y.val : Int)⟩ cell).field y' x' =
      if y' = y ∧ x' = x then cell else f.field y' x' := by
  simp [put, Fin.ext_iff]

theorem at'_put (f : GameField) {point : Point} (inside : Inside point) (other : Point)
    (cell : Cell) :
    (f.put point cell).at' other = if other = point then cell else f.at' other := by
  obtain ⟨y, x, rfl⟩ := inside_iff.mp inside
  by_cases within : Inside other
  · obtain ⟨y', x', rfl⟩ := inside_iff.mp within
    simp only [at'_cell, put_cell, Point.mk.injEq, Nat.cast_inj, Fin.val_inj]
    simp only [and_comm]
  · have different : other ≠ ⟨(x.val : Int), (y.val : Int)⟩ := by
      rintro rfl
      exact within inside
    simp [at', within, different]

theorem ext_at {f g : GameField} (same : ∀ point, Inside point → f.at' point = g.at' point) :
    f = g := by
  ext y x
  simpa using same ⟨(x.val : Int), (y.val : Int)⟩ (inside_cell y x)

theorem getState_outside (f : GameField) {point : Point} (outside : ¬ Inside point) :
    f.getState point = .empty := by
  simp [getState, contains, outside]

theorem getState_inside (f : GameField) {point : Point} (inside : Inside point) :
    f.getState point = if f.at' point = 1 then .unharmed else if f.at' point = 2 then .damaged
      else if f.at' point = 3 then .missed else .empty := by
  unfold getState
  rw [if_neg (by simp [contains, inside])]
  rfl

theorem getState_unharmed {f : GameField} {point : Point} :
    f.getState point = .unharmed ↔ Inside point ∧ f.at' point = 1 := by
  by_cases inside : Inside point
  · rw [getState_inside f inside]
    split_ifs <;> simp_all
  · simp [getState_outside f inside, inside]

theorem getState_damaged {f : GameField} {point : Point} :
    f.getState point = .damaged ↔ Inside point ∧ f.at' point = 2 := by
  by_cases inside : Inside point
  · rw [getState_inside f inside]
    split_ifs <;> simp_all
  · simp [getState_outside f inside, inside]

theorem getState_missed {f : GameField} {point : Point} :
    f.getState point = .missed ↔ Inside point ∧ f.at' point = 3 := by
  by_cases inside : Inside point
  · rw [getState_inside f inside]
    split_ifs <;> simp_all
  · simp [getState_outside f inside, inside]

theorem getState_empty_inside {f : GameField} {point : Point} (inside : Inside point) :
    f.getState point = .empty ↔ f.at' point ≠ 1 ∧ f.at' point ≠ 2 ∧ f.at' point ≠ 3 := by
  rw [getState_inside f inside]
  split_ifs <;> simp_all

/-- A point of the field at which no shot has landed and nothing was marked. -/
def Untried (f : GameField) (point : Point) : Prop :=
  Inside point ∧ (f.getState point = .empty ∨ f.getState point = .unharmed)

instance (f : GameField) (point : Point) : Decidable (f.Untried point) :=
  inferInstanceAs (Decidable (Inside point ∧ _))

theorem untried_iff {f : GameField} {point : Point} :
    f.Untried point ↔ Inside point ∧ f.at' point ≠ 2 ∧ f.at' point ≠ 3 := by
  refine and_congr_right fun inside => ?_
  rw [getState_empty_inside inside, getState_unharmed]
  by_cases whole : f.at' point = 1 <;> simp [whole, inside]

/-- `after` differs from `before` only where an empty cell became a missed one. -/
def Marked (before after : GameField) : Prop :=
  ∀ point, Inside point → after.at' point = before.at' point ∨
    (before.getState point = .empty ∧ after.at' point = 3)

theorem Marked.refl (f : GameField) : Marked f f := fun _ _ => Or.inl rfl

theorem Marked.trans {f g h : GameField} (first : Marked f g) (second : Marked g h) :
    Marked f h := by
  intro point inside
  rcases first point inside with kept | ⟨empty, missed⟩
  · rcases second point inside with kept' | ⟨empty', missed'⟩
    · exact Or.inl (kept'.trans kept)
    · refine Or.inr ⟨?_, missed'⟩
      rw [getState_empty_inside inside] at empty' ⊢
      rwa [kept] at empty'
  · rcases second point inside with kept' | ⟨_, missed'⟩
    · exact Or.inr ⟨empty, kept'.trans missed⟩
    · exact Or.inr ⟨empty, missed'⟩

theorem marked_setPoint (f : GameField) (pos : Point) (empty : f.getState pos = .empty) :
    Marked f (f.setPoint pos .missed) := by
  intro point _
  by_cases inside : Inside pos
  · simp only [setPoint, contains_iff.mpr inside, Bool.not_true, Bool.false_eq_true, ↓reduceIte,
      at'_put f inside, CellState.toCell]
    by_cases same : point = pos
    · subst same
      exact Or.inr ⟨empty, by simp⟩
    · exact Or.inl (by simp [same])
  · exact Or.inl (by simp [setPoint, contains, inside])

theorem marked_around (f : GameField) (curPos : Point) : Marked f (f.markAround curPos) := by
  unfold markAround
  generalize around = deltas
  induction deltas generalizing f with
  | nil => exact Marked.refl f
  | cons delta rest ih =>
      simp only [List.foldl_cons]
      split_ifs with outside empty
      · exact ih f
      · exact (marked_setPoint f _ empty).trans (ih _)
      · exact ih f

theorem marked_line (dir : Point) (fuel : Nat) (f : GameField) (curPos : Point) :
    Marked f (markLine dir fuel f curPos) := by
  induction fuel generalizing f curPos with
  | zero => exact Marked.refl f
  | succ fuel ih =>
      simp only [markLine]
      split_ifs with hit
      · exact (marked_around f curPos).trans (ih _ _)
      · exact Marked.refl f

theorem marked_boundary (f : GameField) (point : Point) :
    Marked f (f.markDestroyedShipBoundary point) := by
  have line (start : Point) (f : GameField) (dir : Point) :
      Marked f (if !contains start || decide (f.getState start ≠ .damaged) then f
        else markLine dir (fldSz + 1) f start) := by
    split_ifs
    · exact Marked.refl f
    · exact marked_line dir _ f start
  unfold markDestroyedShipBoundary
  split_ifs with other
  · exact Marked.refl f
  · exact (((line point f ⟨1, 0⟩).trans (line _ _ ⟨-1, 0⟩)).trans (line _ _ ⟨0, 1⟩)).trans
      (line _ _ ⟨0, -1⟩)

theorem Marked.at_iff {f g : GameField} (marked : Marked f g) {point : Point}
    (inside : Inside point) {cell : Cell} (ship : cell = 1 ∨ cell = 2) :
    g.at' point = cell ↔ f.at' point = cell := by
  rcases marked point inside with kept | ⟨empty, missed⟩
  · rw [kept]
  · have := (getState_empty_inside inside).mp empty
    rcases ship with rfl | rfl <;> simp_all

theorem registerShot_refused (f : GameField) (point : Point) (tried : ¬ f.Untried point) :
    f.registerShot point = (.empty, f) := by
  by_cases inside : Inside point
  · have state : f.getState point = .damaged ∨ f.getState point = .missed := by
      cases h : f.getState point <;> simp_all [Untried]
    rcases state with state | state <;>
      simp [registerShot, contains, inside, state, shotResult]
  · simp [registerShot, contains, inside]

theorem registerShot_missed (f : GameField) (point : Point) (inside : Inside point)
    (water : f.getState point = .empty) : f.registerShot point = (.missed, f.put point 3) := by
  simp [registerShot, contains, inside, water, shotResult, CellState.toCell]

theorem registerShot_unharmed {f : GameField} {point : Point} (whole : f.getState point = .unharmed) :
    f.registerShot point = (.damaged,
      if (f.put point 2).shipDestroyed point then (f.put point 2).markDestroyedShipBoundary point
      else f.put point 2) := by
  have inside : Inside point := (getState_unharmed.mp whole).1
  simp only [registerShot, contains, inside, whole, shotResult, CellState.toCell, decide_true,
    Bool.not_true, Bool.false_eq_true, ↓reduceIte, ne_eq, reduceCtorEq, not_false_eq_true,
    and_self, true_and]

theorem registerShot_damaged (f : GameField) (point : Point) (hit : f.getState point = .unharmed) :
    ∃ g, f.registerShot point = (.damaged, g) ∧ Marked (f.put point 2) g := by
  rw [registerShot_unharmed hit]
  split_ifs with sunk
  · exact ⟨_, rfl, marked_boundary _ _⟩
  · exact ⟨_, rfl, Marked.refl _⟩

theorem registerShot_result (f : GameField) (point : Point) :
    (f.registerShot point).1 ≠ .empty ↔ f.Untried point := by
  by_cases untried : f.Untried point
  · obtain ⟨inside, water | whole⟩ := untried
    · simp [registerShot_missed f point inside water, Untried, inside, water]
    · obtain ⟨g, shot, _⟩ := registerShot_damaged f point whole
      simp [shot, Untried, inside, whole]
  · simp [registerShot_refused f point untried, untried]

theorem registerShot_cell (f : GameField) (point : Point) (untried : f.Untried point) :
    (f.registerShot point).2.at' point = 2 ∨ (f.registerShot point).2.at' point = 3 := by
  obtain ⟨inside, water | whole⟩ := untried
  · simp [registerShot_missed f point inside water, at'_put f inside]
  · obtain ⟨g, shot, marked⟩ := registerShot_damaged f point whole
    rw [shot]
    exact Or.inl ((marked.at_iff inside (Or.inr rfl)).mpr (by simp [at'_put f inside]))

/-- How many cells of the field hold this value. -/
def count (f : GameField) (cell : Cell) : Nat :=
  (Finset.univ.filter fun at' : Fin fldSz × Fin fldSz => f.field at'.1 at'.2 = cell).card

theorem count_marked {f g : GameField} (marked : Marked f g) {cell : Cell}
    (ship : cell = 1 ∨ cell = 2) : g.count cell = f.count cell := by
  unfold count
  congr 1
  ext ⟨y, x⟩
  have := marked.at_iff (inside_cell y x) ship
  simpa using this

theorem count_put (f : GameField) {point : Point} (inside : Inside point) (new cell : Cell) :
    (f.put point new).count cell + (if f.at' point = cell then 1 else 0) =
      f.count cell + (if new = cell then 1 else 0) := by
  obtain ⟨y, x, rfl⟩ := inside_iff.mp inside
  simp only [count, Finset.card_filter, at'_cell]
  rw [← Finset.add_sum_erase _ _ (Finset.mem_univ (y, x)),
    ← Finset.add_sum_erase _ (fun at' : Fin fldSz × Fin fldSz =>
      if f.field at'.1 at'.2 = cell then 1 else 0) (Finset.mem_univ (y, x))]
  have others : ∑ at' ∈ Finset.univ.erase (y, x),
        (if (f.put ⟨(x.val : Int), (y.val : Int)⟩ new).field at'.1 at'.2 = cell then 1 else 0) =
      ∑ at' ∈ Finset.univ.erase (y, x), (if f.field at'.1 at'.2 = cell then 1 else 0) := by
    apply Finset.sum_congr rfl
    rintro ⟨y', x'⟩ member
    have different : ¬ (y' = y ∧ x' = x) := by
      rintro ⟨rfl, rfl⟩
      simp at member
    simp [put_cell, different]
  rw [others]
  simp only [put_cell, and_self, ↓reduceIte]
  omega

theorem count_pos_iff (f : GameField) (cell : Cell) :
    0 < f.count cell ↔ ∃ y x, f.field y x = cell := by
  simp [count, Finset.card_pos, Finset.Nonempty]

theorem allShipsDestroyed_iff (f : GameField) : f.allShipsDestroyed = true ↔ f.count 1 = 0 := by
  have none := count_pos_iff f 1
  unfold allShipsDestroyed
  rw [decide_eq_true_iff]
  constructor
  · intro destroyed
    by_contra some
    obtain ⟨y, x, whole⟩ := none.mp (Nat.pos_of_ne_zero some)
    exact destroyed y x whole
  · intro zero y x whole
    have := none.mpr ⟨y, x, whole⟩
    omega

/-- A shot moves at most one cell from the whole ones to the damaged ones. -/
theorem registerShot_count (f : GameField) (point : Point) :
    (f.registerShot point).2.count 1 + (if (f.registerShot point).1 = .damaged then 1 else 0) =
        f.count 1 ∧
      (f.registerShot point).2.count 2 =
        f.count 2 + (if (f.registerShot point).1 = .damaged then 1 else 0) := by
  by_cases untried : f.Untried point
  · obtain ⟨inside, water | whole⟩ := untried
    · have cell := (getState_empty_inside inside).mp water
      have one := count_put f inside 3 1
      have two := count_put f inside 3 2
      simp_all [registerShot_missed f point inside water]
    · obtain ⟨g, shot, marked⟩ := registerShot_damaged f point whole
      have cell := (getState_unharmed.mp whole).2
      have one := count_put f inside 2 1
      have two := count_put f inside 2 2
      rw [shot]
      simp only [count_marked marked (Or.inl rfl), count_marked marked (Or.inr rfl), ↓reduceIte]
      simp_all
  · simp [registerShot_refused f point untried]

theorem isValidStartField_cells {f : GameField} (valid : f.isValidStartField = true)
    (y x : Fin fldSz) : f.field y x = 0 ∨ f.field y x = 1 := by
  simp only [isValidStartField, isValidStartFieldWith, Bool.and_eq_true,
    decide_eq_true_eq] at valid
  exact valid.2 y x

def Shot (f : GameField) : Prop := ∃ y x, f.field y x = 2 ∨ f.field y x = 3

theorem Shot.not_valid {f : GameField} (shot : f.Shot) : f.isValidStartField = false := by
  obtain ⟨y, x, cell⟩ := shot
  by_contra valid
  have := isValidStartField_cells (Bool.not_eq_false _ ▸ valid) y x
  rcases cell with cell | cell <;> simp [cell] at this

theorem Shot.of_at {f : GameField} {point : Point} (inside : Inside point)
    (cell : f.at' point = 2 ∨ f.at' point = 3) : f.Shot := by
  obtain ⟨y, x, rfl⟩ := inside_iff.mp inside
  exact ⟨y, x, by simpa using cell⟩

theorem shot_registerShot (f : GameField) (point : Point) (untried : f.Untried point) :
    (f.registerShot point).2.Shot :=
  Shot.of_at untried.1 (registerShot_cell f point untried)

end Battleship.GameField
