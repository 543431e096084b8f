import Battleship.FleetCheck

/-! The walks of `_ship_destroyed` and `_mark_destroyed_ship_boundary` from the last
hit. On a ship with only water around it they do not leave the ship, and from any of
its cells they come to every other. -/
namespace Battleship

def along (start dir : Point) (steps : Nat) : Point :=
  ⟨start.x + steps * dir.x, start.y + steps * dir.y⟩

@[simp] theorem along_zero (start dir : Point) : along start dir 0 = start := by
  ext <;> simp [along]

theorem along_add (start dir : Point) (steps : Nat) :
    along (start + dir) dir steps = along start dir (steps + 1) := by
  ext <;> simp [along] <;> ring

theorem along_near {dir : Point} (direction : dir ∈ GameField.dirs) (start : Point) (steps : Nat) :
    Near (along start dir steps) (along start dir (steps + 1)) := by
  simp only [GameField.dirs, List.mem_cons, List.not_mem_nil, or_false] at direction
  unfold Near along
  rcases direction with rfl | rfl | rfl | rfl <;> simp only <;> omega

/-- From any cell of a segment to any other one goes straight inside it. -/
theorem Segment.reach {seg : Segment} (sized : seg.Sized) {start goal : Point}
    (inStart : start ∈ seg.cells) (inGoal : goal ∈ seg.cells) :
    ∃ dir ∈ GameField.dirs, ∃ steps < 5, goal = along start dir steps ∧
      ∀ k ≤ steps, along start dir k ∈ seg.cells := by
  obtain ⟨low, high⟩ := sized
  obtain ⟨⟨startLeft, startRight⟩, startTop, startBottom⟩ := mem_cells.mp inStart
  obtain ⟨⟨goalLeft, goalRight⟩, goalTop, goalBottom⟩ := mem_cells.mp inGoal
  have thin : seg.width ≤ 5 ∧ seg.height ≤ 5 ∧ (seg.width = 1 ∨ seg.height = 1) := by
    unfold width height
    split_ifs <;> omega
  simp only [mem_cells, GameField.dirs, List.mem_cons, List.not_mem_nil, or_false, exists_eq_or_imp,
    exists_eq_left]
  -- A segment is one cell thin, so two cells share the column or the row.
  by_cases sameColumn : goal.x = start.x
  · rcases le_total start.y goal.y with down | up
    · refine .inr (.inr (.inl ⟨(goal.y - start.y).toNat, by omega, ?_, fun k le => ?_⟩))
      · ext <;> simp [along] <;> omega
      · simp only [along]
        omega
    · refine .inr (.inr (.inr ⟨(start.y - goal.y).toNat, by omega, ?_, fun k le => ?_⟩))
      · ext <;> simp [along] <;> omega
      · simp only [along]
        omega
  · have sameRow : goal.y = start.y := by omega
    rcases le_total start.x goal.x with right | left
    · refine .inl ⟨(goal.x - start.x).toNat, by omega, ?_, fun k le => ?_⟩
      · ext <;> simp [along] <;> omega
      · simp only [along]
        omega
    · refine .inr (.inl ⟨(start.x - goal.x).toNat, by omega, ?_, fun k le => ?_⟩)
      · ext <;> simp [along] <;> omega
      · simp only [along]
        omega

namespace GameField

/-- The segment is a ship of the field, some of its cells perhaps damaged, with nothing
but water around it. -/
structure Afloat (f : GameField) (seg : Segment) : Prop where
  ship : ∀ cell ∈ seg.cells, f.getState cell = .unharmed ∨ f.getState cell = .damaged
  water : ∀ cell ∈ seg.cells, ∀ point, Near cell point → point ∉ seg.cells →
    f.getState point = .empty ∨ f.getState point = .missed

theorem Afloat.walk {f : GameField} {seg : Segment} (afloat : f.Afloat seg) {start dir : Point}
    (direction : dir ∈ dirs) (inSeg : start ∈ seg.cells) (steps : Nat)
    (ship : ∀ k < steps, f.getState (along start dir (k + 1)) = .unharmed ∨
      f.getState (along start dir (k + 1)) = .damaged) :
    ∀ k ≤ steps, along start dir k ∈ seg.cells := by
  intro k le
  induction k with
  | zero =>
      rw [along_zero]
      exact inSeg
  | succ k ih =>
      have here := ih (by omega)
      have next := ship k (by omega)
      by_contra outside
      rcases afloat.water _ here _ (along_near direction start k) outside with empty | missed
      · rw [empty] at next
        simp at next
      · rw [missed] at next
        simp at next

/-- A walk ends on a whole cell if over damaged ones it comes to one. -/
theorem walkEnd_unharmed (f : GameField) (dir : Point) (fuel : Nat) (cur : Point)
    {posState : CellState} (other : posState ≠ .unharmed) :
    f.walkEnd dir fuel cur posState = .unharmed ↔
      ∃ k < fuel, (∀ m < k, f.getState (along cur dir (m + 1)) = .damaged) ∧
        f.getState (along cur dir (k + 1)) = .unharmed := by
  induction fuel generalizing cur posState with
  | zero => simpa [walkEnd] using other
  | succ fuel ih =>
      have first : along cur dir 1 = cur + dir := by
        rw [← along_add, along_zero]
      rw [walkEnd]
      by_cases inside : Inside (cur + dir)
      · rw [if_neg (by simp [contains, inside])]
        by_cases damaged : f.getState (cur + dir) = .damaged
        -- The walk goes on: the witness moves by one step.
        · rw [if_pos damaged, ih (cur + dir) (by rw [damaged]; decide)]
          simp only [along_add]
          constructor
          · rintro ⟨k, less, before, whole⟩
            refine ⟨k + 1, by omega, fun m lt => ?_, whole⟩
            cases m with
            | zero =>
                rw [Nat.zero_add, first]
                exact damaged
            | succ m => exact before m (by omega)
          · rintro ⟨k, less, before, whole⟩
            cases k with
            | zero =>
                rw [Nat.zero_add, first, damaged] at whole
                cases whole
            | succ k => exact ⟨k, by omega, fun m lt => before (m + 1) (by omega), whole⟩
        · rw [if_neg damaged]
          constructor
          · intro whole
            refine ⟨0, by omega, by simp, ?_⟩
            rw [Nat.zero_add, first]
            exact whole
          · rintro ⟨k, less, before, whole⟩
            cases k with
            | zero =>
                rw [Nat.zero_add, first] at whole
                exact whole
            | succ k =>
                have step := before 0 (by omega)
                rw [Nat.zero_add, first] at step
                exact absurd step damaged
      · rw [if_pos (by simp [contains, inside])]
        -- Outside the field there is nothing to come to.
        have empty := getState_outside f inside
        refine iff_of_false other ?_
        rintro ⟨k, less, before, whole⟩
        cases k with
        | zero =>
            rw [Nat.zero_add, first, empty] at whole
            cases whole
        | succ k =>
            have step := before 0 (by omega)
            rw [Nat.zero_add, first, empty] at step
            cases step

theorem shipDestroyed_iff {f : GameField} {seg : Segment} (sized : seg.Sized)
    (afloat : f.Afloat seg) {point : Point} (inSeg : point ∈ seg.cells)
    (hit : f.getState point = .damaged) :
    f.shipDestroyed point = true ↔ ∀ cell ∈ seg.cells, f.getState cell = .damaged := by
  rw [shipDestroyed, if_neg (by simp [hit])]
  simp only [List.all_eq_true, decide_eq_true_eq, hit,
    ne_eq, walkEnd_unharmed f _ fldSz point (show CellState.damaged ≠ .unharmed by decide)]
  constructor
  · intro destroyed cell inCell
    by_contra whole
    obtain ⟨dir, direction, steps, short, goal, path⟩ := Segment.reach sized inSeg inCell
    cases steps with
    | zero =>
        rw [along_zero] at goal
        rw [goal] at whole
        exact whole hit
    | succ last =>
        have met : ∃ k, f.getState (along point dir (k + 1)) = .unharmed := by
          refine ⟨last, ?_⟩
          rw [← goal]
          exact (afloat.ship cell inCell).resolve_right whole
        have early : Nat.find met ≤ last := by
          apply Nat.find_le
          rw [← goal]
          exact (afloat.ship cell inCell).resolve_right whole
        -- The walk stops at the first whole cell on the way.
        refine destroyed dir direction ⟨Nat.find met, ?_, fun m lt => ?_, Nat.find_spec met⟩
        · show Nat.find met < 10
          omega
        · exact (afloat.ship _ (path (m + 1) (by omega))).resolve_left (Nat.find_min met lt)
  · rintro all dir direction ⟨k, less, before, whole⟩
    have stays := afloat.walk direction inSeg (k + 1) (fun m lt => by
      by_cases last : m = k
      · rw [last]
        exact .inl whole
      · exact .inr (before m (by omega)))
    rw [all _ (stays (k + 1) le_rfl)] at whole
    cases whole

structure Marks (before after : GameField) (cells : Set Point) : Prop where
  missed : ∀ point, Inside point → before.getState point = .empty →
    (∃ cell ∈ cells, Near cell point) → after.at' point = 3
  kept : ∀ point, Inside point →
    ¬ (before.getState point = .empty ∧ ∃ cell ∈ cells, Near cell point) →
    after.at' point = before.at' point

theorem Marks.none (f : GameField) : Marks f f ∅ :=
  ⟨fun _ _ _ ⟨_, absent, _⟩ => absent.elim, fun _ _ _ => rfl⟩

theorem getState_congr {f g : GameField} {point : Point}
    (same : f.at' point = g.at' point) : f.getState point = g.getState point := by
  simp only [getState, same]

theorem Marks.trans {f g h : GameField} {cells cells' : Set Point} (first : Marks f g cells)
    (second : Marks g h cells') : Marks f h (cells ∪ cells') := by
  constructor
  · rintro point inside empty ⟨cell, member, near⟩
    by_cases here : ∃ cell ∈ cells, Near cell point
    · have three := first.missed point inside empty here
      have missed := getState_missed.mpr ⟨inside, three⟩
      have full : g.getState point ≠ .empty := by
        rw [missed]
        decide
      rw [second.kept point inside fun both => full both.1, three]
    · have there : ∃ cell ∈ cells', Near cell point := by
        rcases member with left | right
        · exact absurd ⟨cell, left, near⟩ here
        · exact ⟨cell, right, near⟩
      have same := first.kept point inside fun both => here both.2
      exact second.missed point inside ((getState_congr same).trans empty) there
  · intro point inside not
    have same := first.kept point inside fun ⟨empty, cell, member, near⟩ =>
      not ⟨empty, cell, .inl member, near⟩
    rw [second.kept point inside ?_, same]
    rintro ⟨empty, cell, member, near⟩
    exact not ⟨(getState_congr same).symm.trans empty, cell, .inr member, near⟩

theorem Marks.damaged {f g : GameField} {cells : Set Point} (marks : Marks f g cells)
    {point : Point} : g.getState point = .damaged ↔ f.getState point = .damaged := by
  rw [getState_damaged, getState_damaged]
  refine and_congr_right fun inside => ?_
  by_cases marked : f.getState point = .empty ∧ ∃ cell ∈ cells, Near cell point
  · have missed := marks.missed point inside marked.1 marked.2
    have cell := (getState_empty_inside inside).mp marked.1
    simp [missed, cell]
  · rw [marks.kept point inside marked]

theorem setPoint_missed (f : GameField) (pos : Point) {point : Point} (inside : Inside point) :
    (if !contains pos then f
      else if f.getState pos = .empty then f.setPoint pos .missed else f).at' point =
      if f.getState point = .empty ∧ point = pos then 3 else f.at' point := by
  by_cases here : point = pos
  · subst here
    simp only [contains_iff.mpr inside, Bool.not_true, Bool.false_eq_true, ↓reduceIte, and_true]
    split_ifs
    · simp [setPoint, contains_iff.mpr inside, at'_put f inside, CellState.toCell]
    · rfl
  · simp only [here, and_false, ↓reduceIte]
    split_ifs with outside empty
    · rfl
    · have within : Inside pos := by simpa [contains] using outside
      simp [setPoint, contains_iff.mpr within, at'_put f within, here]
    · rfl

theorem foldl_marks (curPos : Point) (deltas : List Point) (f : GameField) {point : Point}
    (inside : Inside point) :
    (deltas.foldl (fun f delta =>
      if !contains (curPos + delta) then f
      else if f.getState (curPos + delta) = .empty then f.setPoint (curPos + delta) .missed
      else f) f).at' point =
      if f.getState point = .empty ∧ ∃ delta ∈ deltas, point = curPos + delta then 3
      else f.at' point := by
  induction deltas generalizing f with
  | nil => simp
  | cons delta deltas ih =>
      rw [List.foldl_cons, ih]
      have step := setPoint_missed f (curPos + delta) inside
      generalize (if !contains (curPos + delta) then f
        else if f.getState (curPos + delta) = .empty then f.setPoint (curPos + delta) .missed
        else f) = g at *
      by_cases marked : f.getState point = .empty ∧ point = curPos + delta
      · rw [if_pos marked] at step
        have missed := getState_missed.mpr ⟨inside, step⟩
        rw [if_neg fun both => by rw [missed] at both; exact absurd both.1 (by decide), step,
          if_pos ⟨marked.1, delta, List.mem_cons_self, marked.2⟩]
      · rw [if_neg marked] at step
        rw [step, getState_congr step]
        congr 1
        simp only [List.mem_cons, exists_eq_or_imp, eq_iff_iff]
        tauto

theorem markAround_marks {f : GameField} {curPos : Point} (taken : f.getState curPos ≠ .empty) :
    Marks f (f.markAround curPos) {curPos} := by
  have cells {point : Point} (inside : Inside point) := foldl_marks curPos around f inside
  have nbrs {point : Point} (empty : f.getState point = .empty) :
      (∃ delta ∈ around, point = curPos + delta) ↔ Near curPos point := by
    have other : ¬ (point.x = curPos.x ∧ point.y = curPos.y) := by
      rintro ⟨atX, atY⟩
      rw [Point.ext' atX atY] at empty
      exact taken empty
    simp only [around, List.mem_cons, List.not_mem_nil, or_false, exists_eq_or_imp, exists_eq_left]
    simp only [Point.ext'_iff, Point.add_x, Point.add_y, Near]
    omega
  constructor
  · rintro point inside empty ⟨_, rfl, near⟩
    exact (cells inside).trans (if_pos ⟨empty, (nbrs empty).mpr near⟩)
  · intro point inside not
    apply (cells inside).trans
    apply if_neg
    rintro ⟨empty, here⟩
    exact not ⟨empty, curPos, rfl, (nbrs empty).mp here⟩

def damagedLine (f : GameField) (dir : Point) (fuel : Nat) (start : Point) : Set Point :=
  {cell | ∃ k < fuel, cell = along start dir k ∧
    ∀ m ≤ k, f.getState (along start dir m) = .damaged}

theorem damagedLine_stop {f : GameField} {dir : Point} {fuel : Nat} {start : Point}
    (other : f.getState start ≠ .damaged) : f.damagedLine dir fuel start = ∅ := by
  rw [Set.eq_empty_iff_forall_notMem]
  rintro cell ⟨k, _, _, damaged⟩
  have first := damaged 0 (Nat.zero_le k)
  rw [along_zero] at first
  exact other first

theorem damagedLine_succ {f : GameField} {dir : Point} {fuel : Nat} {start : Point}
    (damaged : f.getState start = .damaged) :
    f.damagedLine dir (fuel + 1) start = {start} ∪ f.damagedLine dir fuel (start + dir) := by
  ext cell
  simp only [damagedLine, Set.mem_union, Set.mem_singleton_iff, Set.mem_ofPred_eq, along_add]
  constructor
  · rintro ⟨k, less, rfl, all⟩
    cases k with
    | zero => exact .inl (along_zero start dir)
    | succ k => exact .inr ⟨k, by omega, rfl, fun m le => all (m + 1) (by omega)⟩
  · rintro (rfl | ⟨k, less, rfl, all⟩)
    · refine ⟨0, by omega, (along_zero cell dir).symm, fun m le => ?_⟩
      obtain rfl : m = 0 := by omega
      rw [along_zero]
      exact damaged
    · refine ⟨k + 1, by omega, rfl, fun m le => ?_⟩
      cases m with
      | zero =>
          rw [along_zero]
          exact damaged
      | succ m => exact all m (by omega)

theorem Marks.damagedLine {f g : GameField} {cells : Set Point} (marks : Marks f g cells)
    (dir : Point) (fuel : Nat) (start : Point) :
    g.damagedLine dir fuel start = f.damagedLine dir fuel start := by
  simp only [GameField.damagedLine, marks.damaged]

theorem markLine_marks (dir : Point) (fuel : Nat) (f : GameField) (start : Point) :
    Marks f (markLine dir fuel f start) (f.damagedLine dir fuel start) := by
  induction fuel generalizing f start with
  | zero =>
      have nothing : f.damagedLine dir 0 start = ∅ := by simp [GameField.damagedLine]
      rw [nothing]
      exact Marks.none f
  | succ fuel ih =>
      rw [markLine]
      split_ifs with damaged
      · have here : Marks f (f.markAround start) {start} :=
          markAround_marks (by rw [damaged]; decide)
        have later := ih (f.markAround start) (start + dir)
        rw [here.damagedLine] at later
        rw [damagedLine_succ damaged]
        exact here.trans later
      · rw [damagedLine_stop damaged]
        exact Marks.none f

/-- The cells of a destroyed ship are those of the four lines from its last hit. -/
theorem lines_cover {f : GameField} {seg : Segment} (sized : seg.Sized) (afloat : f.Afloat seg)
    (all : ∀ cell ∈ seg.cells, f.getState cell = .damaged) {point : Point}
    (inSeg : point ∈ seg.cells) :
    f.damagedLine ⟨1, 0⟩ (fldSz + 1) point ∪
      f.damagedLine ⟨-1, 0⟩ (fldSz + 1) (point + ⟨-1, 0⟩) ∪
      f.damagedLine ⟨0, 1⟩ (fldSz + 1) (point + ⟨0, 1⟩) ∪
      f.damagedLine ⟨0, -1⟩ (fldSz + 1) (point + ⟨0, -1⟩) = {cell | cell ∈ seg.cells} := by
  have within {dir : Point} (direction : dir ∈ dirs) {fuel : Nat} {cell : Point}
      (met : cell ∈ f.damagedLine dir fuel (point + dir)) : cell ∈ seg.cells := by
    obtain ⟨k, _, rfl, damaged⟩ := met
    simp only [along_add] at damaged ⊢
    exact afloat.walk direction inSeg (k + 1)
      (fun m lt => .inr (damaged m (by omega))) (k + 1) le_rfl
  rw [damagedLine_succ (all point inSeg)]
  ext cell
  simp only [Set.mem_union, Set.mem_singleton_iff, Set.mem_ofPred_eq]
  constructor
  -- The line to the right starts on the hit cell, the others one cell beside it.
  · rintro ((((rfl | right) | left) | down) | up)
    · exact inSeg
    · exact within (by decide) right
    · exact within (by decide) left
    · exact within (by decide) down
    · exact within (by decide) up
  · intro inCell
    obtain ⟨dir, direction, steps, short, rfl, path⟩ := Segment.reach sized inSeg inCell
    cases steps with
    | zero => simp
    | succ k =>
        have met (fuel : Nat) (enough : 5 ≤ fuel) :
            along point dir (k + 1) ∈ f.damagedLine dir fuel (point + dir) := by
          refine ⟨k, by omega, (along_add point dir k).symm, fun m le => ?_⟩
          rw [along_add]
          exact all _ (path (m + 1) (by omega))
        simp only [dirs, List.mem_cons, List.not_mem_nil, or_false] at direction
        rcases direction with rfl | rfl | rfl | rfl
        · exact .inl (.inl (.inl (.inr (met fldSz (by decide)))))
        · exact .inl (.inl (.inr (met (fldSz + 1) (by decide))))
        · exact .inl (.inr (met (fldSz + 1) (by decide)))
        · exact .inr (met (fldSz + 1) (by decide))

theorem markDestroyedShipBoundary_marks {f : GameField} {seg : Segment} (sized : seg.Sized)
    (afloat : f.Afloat seg) (all : ∀ cell ∈ seg.cells, f.getState cell = .damaged) {point : Point}
    (inSeg : point ∈ seg.cells) :
    Marks f (f.markDestroyedShipBoundary point) {cell | cell ∈ seg.cells} := by
  -- A line that does not start on a damaged cell marks nothing.
  have line (start dir : Point) (g : GameField) :
      Marks g (if !contains start || decide (g.getState start ≠ .damaged) then g
        else markLine dir (fldSz + 1) g start) (g.damagedLine dir (fldSz + 1) start) := by
    split_ifs with skipped
    · have other : g.getState start ≠ .damaged := by
        intro damaged
        have inside := (getState_damaged.mp damaged).1
        simp [contains, inside, damaged] at skipped
      rw [damagedLine_stop other]
      exact Marks.none g
    · exact markLine_marks dir _ g start
  rw [markDestroyedShipBoundary, if_neg (by simp [all point inSeg]),
    ← lines_cover sized afloat all inSeg]
  have next {g : GameField} {cells : Set Point} (marks : Marks f g cells) (start dir : Point) :
      Marks f (if !contains start || decide (g.getState start ≠ .damaged) then g
        else markLine dir (fldSz + 1) g start)
        (cells ∪ f.damagedLine dir (fldSz + 1) start) := by
    have further := line start dir g
    rw [marks.damagedLine] at further
    exact marks.trans further
  have first := line point ⟨1, 0⟩ f
  exact next (next (next first (point + ⟨-1, 0⟩) ⟨-1, 0⟩) (point + ⟨0, 1⟩) ⟨0, 1⟩)
    (point + ⟨0, -1⟩) ⟨0, -1⟩

end GameField
end Battleship
