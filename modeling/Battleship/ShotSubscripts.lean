import Battleship.Bombardment
import Battleship.Library.Runs

/-! A shot with every subscript checked. The table `dirs` has four entries and `around`
eight; a subscript outside of its array is a fault. The loop of
`_mark_destroyed_ship_boundary` goes on to the next direction before it tests whether
there is one. -/
namespace Battleship

open Runs

/-- The array and the subscript that is outside of it; or a loop that is still running
when its turns are used up. -/
inductive IndexFault where
  | field (row column : Int)
  | dirs (i : Nat)
  | around (j : Nat)
  | shipArr (i : Nat)
  | delta (k : Nat)
  | running
  deriving DecidableEq, Repr

namespace GameField

def cell (f : GameField) (row column : Int) : Except IndexFault Cell :=
  if Inside ⟨column, row⟩ then .ok (f.at' ⟨column, row⟩) else .error (.field row column)

def setCell (f : GameField) (row column : Int) (value : Cell) : Except IndexFault GameField :=
  if Inside ⟨column, row⟩ then .ok (f.put ⟨column, row⟩ value) else .error (.field row column)

def dirCount : Nat := 4
def aroundCount : Nat := 8

def dirAt (i : Nat) : Except IndexFault Point :=
  match dirs[i]? with
  | some dir => .ok dir
  | none => .error (.dirs i)

def aroundAt (j : Nat) : Except IndexFault Point :=
  match around[j]? with
  | some delta => .ok delta
  | none => .error (.around j)

namespace Checked

def getState (f : GameField) (point : Point) : Except IndexFault CellState :=
  if !contains point then .ok .empty
  else do
    let cell ← f.cell point.y point.x
    .ok (if cell = CellState.unharmed.toCell then .unharmed
      else if cell = CellState.damaged.toCell then .damaged
      else if cell = CellState.missed.toCell then .missed
      else .empty)

def setPoint (f : GameField) (pos : Point) (state : CellState) : Except IndexFault GameField :=
  if !contains pos then .ok f else f.setCell pos.y pos.x state.toCell

/-- The `do .. while` of `_ship_destroyed`. The step that leaves the field is taken back
with the same subscript. -/
def walkEnd (f : GameField) (i : Nat) : Nat → Point → CellState → Except IndexFault CellState
  | 0, _, _ => .error .running
  | turns + 1, curPos, posState => do
      let dir ← dirAt i
      if !contains (curPos + dir) then .ok posState
      else do
        let posState ← getState f (curPos + dir)
        if posState = .damaged then walkEnd f i turns (curPos + dir) posState else .ok posState

/-- `for(int i = 0; i < dir_count; i++)` of `_ship_destroyed`. -/
def destroyedFrom (f : GameField) (point : Point) (turns : Nat) :
    Nat → Nat → Except IndexFault Bool
  | 0, _ => .error .running
  | left + 1, i =>
      if i < dirCount then do
        let posState ← getState f point
        let posState ← walkEnd f i turns point posState
        if posState = .unharmed then .ok false else destroyedFrom f point turns left (i + 1)
      else .ok true

def shipDestroyed (f : GameField) (turns : Nat) (point : Point) : Except IndexFault Bool := do
  let posState ← getState f point
  if posState ≠ .damaged then .ok false else destroyedFrom f point turns turns 0

def markFrom (curPos : Point) : Nat → GameField → Nat → Except IndexFault GameField
  | 0, _, _ => .error .running
  | left + 1, f, j =>
      if j < aroundCount then do
        let delta ← aroundAt j
        if !contains (curPos + delta) then markFrom curPos left f (j + 1)
        else do
          let state ← getState f (curPos + delta)
          let f ← if state = .empty then setPoint f (curPos + delta) .missed else .ok f
          markFrom curPos left f (j + 1)
      else .ok f

def markLine (i turns : Nat) : Nat → GameField → Point → Except IndexFault GameField
  | 0, _, _ => .error .running
  | left + 1, f, curPos => do
      let state ← getState f curPos
      if state = .damaged then do
        let f ← markFrom curPos turns f 0
        let dir ← dirAt i
        markLine i turns left f (curPos + dir)
      else .ok f

def boundaryLine (i turns : Nat) (f : GameField) (curPos : Point) :
    Except IndexFault GameField :=
  if !contains curPos then .ok f
  else do
    let state ← getState f curPos
    if state ≠ .damaged then .ok f else markLine i turns turns f curPos

/-- The `do .. while` of `_mark_destroyed_ship_boundary`: `i` is tested last. -/
def boundaryFrom (point : Point) (turns : Nat) :
    Nat → GameField → Nat → Point → Except IndexFault GameField
  | 0, _, _, _ => .error .running
  | left + 1, f, i, curPos => do
      let f ← boundaryLine i turns f curPos
      let dir ← dirAt (i + 1)
      if i + 1 < dirCount then boundaryFrom point turns left f (i + 1) (point + dir) else .ok f

def markDestroyedShipBoundary (f : GameField) (turns : Nat) (point : Point) :
    Except IndexFault GameField := do
  let posState ← getState f point
  if posState ≠ .damaged then .ok f else boundaryFrom point turns turns f 0 point

def registerShot (f : GameField) (turns : Nat) (point : Point) :
    Except IndexFault (CellState × GameField) :=
  if !contains point then .ok (.empty, f)
  else do
    let curState ← getState f point
    let ret := shotResult curState
    let f ← if ret ≠ .empty ∧ ret ≠ curState then f.setCell point.y point.x ret.toCell else .ok f
    let destroyed ← if ret = .damaged then shipDestroyed f turns point else .ok false
    let f ← if destroyed then markDestroyedShipBoundary f turns point else .ok f
    .ok (ret, f)

end Checked

theorem cell_inside {f : GameField} {point : Point} (inside : Inside point) :
    f.cell point.y point.x = .ok (f.at' point) := if_pos inside

theorem setCell_inside {f : GameField} {point : Point} (inside : Inside point) (value : Cell) :
    f.setCell point.y point.x value = .ok (f.put point value) := if_pos inside

/-- `get_state` tests the point before it reads the cell. -/
theorem Checked.getState_eq (f : GameField) (point : Point) :
    Checked.getState f point = .ok (f.getState point) := by
  unfold Checked.getState
  by_cases inside : Inside point
  · rw [if_neg (by simp [contains, inside]), cell_inside inside]
    simp only [Bind.bind, Except.bind, GameField.getState, contains_iff.mpr inside]
    rfl
  · rw [if_pos (by simp [contains, inside]), getState_outside f inside]

theorem Checked.setPoint_eq (f : GameField) (pos : Point) (state : CellState) :
    Checked.setPoint f pos state = .ok (f.setPoint pos state) := by
  unfold Checked.setPoint GameField.setPoint
  by_cases inside : Inside pos
  · rw [if_neg (by simp [contains, inside]), if_neg (by simp [contains, inside]),
      setCell_inside inside]
  · rw [if_pos (by simp [contains, inside]), if_pos (by simp [contains, inside])]

theorem dirAt_eq {i : Nat} {dir : Point} (at_ : dirs[i]? = some dir) : dirAt i = .ok dir := by
  rw [dirAt, at_]

theorem along_leaves {dir : Point} (direction : dir ∈ dirs) {start : Point}
    (inside : Inside start) : ¬Inside (along start dir fldSz) := by
  unfold Inside along at *
  simp only [dirs, List.mem_cons, List.not_mem_nil, or_false] at direction
  rcases direction with rfl | rfl | rfl | rfl <;> simp only <;> omega

/-- The walk of `_ship_destroyed` ends before it leaves the field. -/
theorem Checked.walkEnd_eq (f : GameField) {i : Nat} {dir : Point} (at_ : dirs[i]? = some dir)
    {n : Nat} {cur : Point} (leaves : ¬Inside (along cur dir (n + 1))) {turns fuel : Nat}
    (enough : n < turns) (enough' : n ≤ fuel) (posState : CellState) :
    Checked.walkEnd f i turns cur posState = .ok (f.walkEnd dir fuel cur posState) := by
  induction n generalizing cur turns fuel posState with
  | zero =>
      obtain ⟨turns, rfl⟩ := exists_turn enough
      have outside : (!contains (cur + dir)) = true := by
        rw [← along_add, along_zero] at leaves
        simp [contains, leaves]
      simp only [Checked.walkEnd, dirAt_eq at_, Bind.bind, Except.bind, if_pos outside]
      cases fuel with
      | zero => rfl
      | succ fuel => rw [GameField.walkEnd, if_pos outside]
  | succ n ih =>
      obtain ⟨turns, rfl⟩ := exists_turn enough
      obtain ⟨fuel, rfl⟩ := exists_turn enough'
      rw [← along_add] at leaves
      have rest := ih leaves (Nat.lt_of_succ_lt_succ enough) (Nat.le_of_succ_le_succ enough')
      simp only [Checked.walkEnd, dirAt_eq at_, Bind.bind, Except.bind, GameField.walkEnd,
        Checked.getState_eq]
      split_ifs with outside damaged
      · rfl
      · exact rest _
      · rfl

theorem Checked.destroyedFrom_eq (f : GameField) {point : Point} (inside : Inside point)
    {turns : Nat} (enough : fldSz ≤ turns) {left i : Nat} (low : i ≤ dirCount)
    (enough' : dirCount - i < left) :
    Checked.destroyedFrom f point turns left i = .ok ((dirs.drop i).all fun dir =>
      decide (f.walkEnd dir fldSz point (f.getState point) ≠ .unharmed)) := by
  induction left generalizing i with
  | zero => omega
  | succ left ih =>
      rw [Checked.destroyedFrom]
      by_cases more : i < dirCount
      · have listed : i < dirs.length := more
        have at_ : dirs[i]? = some dirs[i] := List.getElem?_eq_getElem listed
        have direction : dirs[i] ∈ dirs := List.getElem_mem listed
        have walk := Checked.walkEnd_eq f at_ (along_leaves direction inside) enough
          (Nat.le_succ 9) (f.getState point)
        rw [if_pos more, List.drop_eq_getElem_cons listed, List.all_cons]
        simp only [Checked.getState_eq, Bind.bind, Except.bind, walk]
        by_cases whole : f.walkEnd dirs[i] fldSz point (f.getState point) = .unharmed
        · rw [if_pos whole]
          simp [whole]
        · rw [if_neg whole, ih more (by omega)]
          simp [whole]
      · obtain rfl : i = dirCount := by omega
        rw [if_neg more]
        rfl

theorem Checked.shipDestroyed_eq (f : GameField) {point : Point} (inside : Inside point)
    {turns : Nat} (enough : fldSz ≤ turns) :
    Checked.shipDestroyed f turns point = .ok (f.shipDestroyed point) := by
  have all := Checked.destroyedFrom_eq f inside enough (Nat.zero_le dirCount)
    (Nat.lt_of_lt_of_le (by decide : dirCount - 0 < fldSz) enough)
  rw [Checked.shipDestroyed, Checked.getState_eq, GameField.shipDestroyed]
  simp only [Bind.bind, Except.bind]
  split_ifs
  · rfl
  · exact all

theorem Checked.markFrom_eq (curPos : Point) (f : GameField) {left j : Nat} (low : j ≤ aroundCount)
    (enough : aroundCount - j < left) :
    Checked.markFrom curPos left f j = .ok ((around.drop j).foldl (fun f delta =>
      if !contains (curPos + delta) then f
      else if f.getState (curPos + delta) = .empty then f.setPoint (curPos + delta) .missed
      else f) f) := by
  induction left generalizing f j with
  | zero => omega
  | succ left ih =>
      rw [Checked.markFrom]
      by_cases more : j < aroundCount
      · have listed : j < around.length := more
        have at_ : aroundAt j = .ok around[j] := by
          rw [aroundAt, List.getElem?_eq_getElem listed]
        rw [if_pos more, List.drop_eq_getElem_cons listed, List.foldl_cons]
        simp only [at_, Bind.bind, Except.bind, Checked.getState_eq, Checked.setPoint_eq]
        split_ifs with outside empty
        · exact ih f more (by omega)
        · exact ih _ more (by omega)
        · exact ih f more (by omega)
      · obtain rfl : j = aroundCount := by omega
        rw [if_neg more]
        rfl

theorem Checked.markLine_eq {i : Nat} {dir : Point} (at_ : dirs[i]? = some dir) {turns : Nat}
    (marks : aroundCount < turns) {n : Nat} (f : GameField) {cur : Point}
    (leaves : ¬Inside (along cur dir n)) {left fuel : Nat} (enough : n < left) (enough' : n ≤ fuel) :
    Checked.markLine i turns left f cur = .ok (GameField.markLine dir fuel f cur) := by
  induction n generalizing f cur left fuel with
  | zero =>
      obtain ⟨left, rfl⟩ := exists_turn enough
      rw [along_zero] at leaves
      have other : f.getState cur ≠ .damaged := by
        rw [getState_outside f leaves]
        decide
      simp only [Checked.markLine, Checked.getState_eq, Bind.bind, Except.bind, if_neg other]
      cases fuel with
      | zero => rfl
      | succ fuel => rw [GameField.markLine, if_neg other]
  | succ n ih =>
      obtain ⟨left, rfl⟩ := exists_turn enough
      obtain ⟨fuel, rfl⟩ := exists_turn enough'
      rw [← along_add] at leaves
      have round := Checked.markFrom_eq cur f (Nat.zero_le aroundCount) marks
      simp only [Checked.markLine, Checked.getState_eq, Bind.bind, Except.bind, round,
        dirAt_eq at_, GameField.markLine]
      split_ifs with damaged
      · exact ih (f.markAround cur) leaves (Nat.lt_of_succ_lt_succ enough)
          (Nat.le_of_succ_le_succ enough')
      · rfl

theorem Checked.boundaryLine_eq {i : Nat} {dir : Point} (at_ : dirs[i]? = some dir) {turns : Nat}
    (enough : fldSz < turns) (f : GameField) (start : Point) :
    Checked.boundaryLine i turns f start =
      .ok (if !contains start || decide (f.getState start ≠ .damaged) then f
        else GameField.markLine dir (fldSz + 1) f start) := by
  unfold Checked.boundaryLine
  by_cases inside : Inside start
  · have leaves := along_leaves (List.mem_of_getElem? at_) inside
    have line := Checked.markLine_eq at_ (Nat.lt_of_lt_of_le (by decide) enough.le) f leaves enough
      (Nat.le_succ fldSz)
    simp only [contains_iff.mpr inside, Bool.not_true, Bool.false_eq_true, ↓reduceIte,
      Checked.getState_eq, Bind.bind, Except.bind, Bool.false_or, decide_eq_true_eq]
    split_ifs
    · rfl
    · exact line
  · simp [contains, inside]

/-- The turn of the last direction reads `dirs[4]`. -/
theorem Checked.boundary_fault (f : GameField) {point : Point} (damaged : f.getState point = .damaged)
    {turns : Nat} (enough : fldSz < turns) :
    Checked.markDestroyedShipBoundary f turns point = .error (.dirs 4) := by
  have four : 4 ≤ turns := (by decide : 4 ≤ fldSz).trans enough.le
  obtain ⟨left, rfl⟩ := Nat.exists_eq_add_of_le' four
  rw [Checked.markDestroyedShipBoundary, Checked.getState_eq]
  simp only [Bind.bind, Except.bind, damaged]
  rw [if_neg (by decide)]
  -- one direction after the other
  have turn {i : Nat} {dir next : Point} (at_ : dirs[i]? = some dir) (next_ : dirAt (i + 1) = .ok next)
      (more : i + 1 < dirCount) (k : Nat) (g : GameField) (cur : Point) :
      ∃ h, Checked.boundaryFrom point (left + 4) (k + 1) g i cur =
        Checked.boundaryFrom point (left + 4) k h (i + 1) (point + next) := by
    refine ⟨if !contains cur || decide (g.getState cur ≠ .damaged) then g
      else GameField.markLine dir (fldSz + 1) g cur, ?_⟩
    rw [Checked.boundaryFrom, Checked.boundaryLine_eq at_ enough]
    simp only [Bind.bind, Except.bind, next_, if_pos more]
  obtain ⟨g₁, first⟩ := turn (i := 0) rfl rfl (by decide) (left + 3) f point
  obtain ⟨g₂, second⟩ := turn (i := 1) rfl rfl (by decide) (left + 2) g₁ (point + ⟨-1, 0⟩)
  obtain ⟨g₃, third⟩ := turn (i := 2) rfl rfl (by decide) (left + 1) g₂ (point + ⟨0, 1⟩)
  rw [first, second, third, Checked.boundaryFrom, Checked.boundaryLine_eq rfl enough]
  rfl

/-- The shot sinks nothing: it hits no unharmed cell, or in one of the four directions the
damaged cells next to it lead to an unharmed one. -/
def SinksNothing (f : GameField) (point : Point) : Prop :=
  f.getState point ≠ .unharmed ∨ ∃ dir ∈ dirs, ∃ k,
    (∀ m < k, f.getState (along point dir (m + 1)) = .damaged) ∧
      f.getState (along point dir (k + 1)) = .unharmed

theorem getState_put_two (f : GameField) {point : Point} (inside : Inside point) {dir : Point}
    (direction : dir ∈ dirs) (m : Nat) :
    (f.put point 2).getState (along point dir (m + 1)) = f.getState (along point dir (m + 1)) := by
  apply getState_put_other f inside
  simp only [dirs, List.mem_cons, List.not_mem_nil, or_false] at direction
  unfold along
  simp only [ne_eq, Point.ext'_iff]
  rcases direction with rfl | rfl | rfl | rfl <;> simp only <;> omega

/-- What `_ship_destroyed` answers when the hit is marked. -/
theorem shipDestroyed_hit {f : GameField} {point : Point} (unharmed : f.getState point = .unharmed) :
    (f.put point 2).shipDestroyed point = true ↔ ¬f.SinksNothing point := by
  have inside := (getState_unharmed.mp unharmed).1
  have hit := getState_hit f inside
  rw [shipDestroyed, if_neg (by simp [hit]), hit, List.all_eq_true]
  simp only [decide_eq_true_eq, ne_eq,
    walkEnd_unharmed _ _ fldSz point (show CellState.damaged ≠ .unharmed by decide)]
  rw [SinksNothing, not_or, not_ne_iff, and_iff_right unharmed]
  constructor
  · rintro destroyed ⟨dir, direction, k, before, whole⟩
    refine destroyed dir direction ⟨k, ?_, fun m lt => ?_, ?_⟩
    · -- the cells up to the unharmed one are in the field
      by_contra far
      have last := before (fldSz - 1) (Nat.lt_of_lt_of_le (by decide) (Nat.not_lt.mp far))
      exact along_leaves direction inside (getState_damaged.mp last).1
    · rw [getState_put_two f inside direction]
      exact before m lt
    · rw [getState_put_two f inside direction]
      exact whole
  · rintro afloat dir direction ⟨k, _, before, whole⟩
    refine afloat ⟨dir, direction, k, fun m lt => ?_, ?_⟩
    · rw [← getState_put_two f inside direction]
      exact before m lt
    · rw [← getState_put_two f inside direction]
      exact whole

/-- A shot that hits nothing is over before the ship is looked at. -/
theorem Checked.registerShot_miss {f : GameField} {point : Point}
    (other : f.getState point ≠ .unharmed) (turns : Nat) :
    Checked.registerShot f turns point = .ok (f.registerShot point) := by
  unfold Checked.registerShot GameField.registerShot
  by_cases inside : Inside point
  · simp only [contains_iff.mpr inside, Bool.not_true, Bool.false_eq_true, ↓reduceIte,
      Checked.getState_eq, setCell_inside inside]
    cases state : f.getState point with
    | unharmed => exact absurd state other
    | empty => rfl
    | damaged => rfl
    | missed => rfl
  · simp [contains, inside]

theorem Checked.registerShot_hit {f : GameField} {point : Point}
    (unharmed : f.getState point = .unharmed) {turns : Nat} (enough : fldSz < turns) :
    Checked.registerShot f turns point =
      if (f.put point 2).shipDestroyed point then .error (.dirs 4)
      else .ok (f.registerShot point) := by
  have inside := (getState_unharmed.mp unharmed).1
  have destroyed := Checked.shipDestroyed_eq (f.put point 2) inside enough.le
  have fault := Checked.boundary_fault (f.put point 2) (getState_hit f inside) enough
  unfold Checked.registerShot GameField.registerShot
  have ret : shotResult .unharmed = .damaged := rfl
  simp only [contains_iff.mpr inside, Bool.not_true, Bool.false_eq_true, ↓reduceIte,
    Checked.getState_eq, setCell_inside inside, unharmed, Bind.bind, Except.bind, ret,
    CellState.toCell, ne_eq, reduceCtorEq, not_false_eq_true, and_self, true_and, destroyed]
  cases (f.put point 2).shipDestroyed point with
  | true => simp only [↓reduceIte, fault]
  | false => rfl

/-- The shot keeps its subscripts in range exactly when it sinks nothing, and then does
what the unchecked one does. A shot that sinks a ship reads `dirs[4]`. -/
theorem registerShot_subscripts (f : GameField) (point : Point) {turns : Nat}
    (enough : fldSz < turns) :
    ((∃ answer, Checked.registerShot f turns point = .ok answer) ↔ f.SinksNothing point) ∧
      (∀ answer, Checked.registerShot f turns point = .ok answer → answer = f.registerShot point) ∧
      (¬f.SinksNothing point → Checked.registerShot f turns point = .error (.dirs 4)) := by
  by_cases unharmed : f.getState point = .unharmed
  · rw [Checked.registerShot_hit unharmed enough]
    have sinks := shipDestroyed_hit unharmed
    by_cases destroyed : (f.put point 2).shipDestroyed point = true
    · rw [if_pos destroyed]
      have sunk := sinks.mp destroyed
      refine ⟨iff_of_false ?_ sunk, ?_, fun _ => rfl⟩
      · rintro ⟨answer, done⟩
        contradiction
      · intro answer done
        contradiction
    · rw [if_neg destroyed]
      have afloat : f.SinksNothing point := not_not.mp fun sunk => destroyed (sinks.mpr sunk)
      refine ⟨iff_of_true ⟨_, rfl⟩ afloat, fun answer done => ?_, fun sunk => absurd afloat sunk⟩
      exact (Except.ok.inj done).symm
  · rw [Checked.registerShot_miss unharmed]
    have nothing : f.SinksNothing point := .inl unharmed
    refine ⟨iff_of_true ⟨_, rfl⟩ nothing, fun answer done => ?_, fun sunk => absurd nothing sunk⟩
    exact (Except.ok.inj done).symm

/-- A hit on the first cell of a long ship, and one on a submarine. -/
theorem registerShot_subscripts_opening :
    (∃ answer, Checked.registerShot openingField 11 ⟨0, 0⟩ = .ok answer) ∧
      Checked.registerShot openingField 11 ⟨0, 4⟩ = .error (.dirs 4) := by
  have long := registerShot_subscripts openingField ⟨0, 0⟩ (show fldSz < 11 by decide)
  have submarine := registerShot_subscripts openingField ⟨0, 4⟩ (show fldSz < 11 by decide)
  constructor
  · apply long.1.mpr
    refine .inr ⟨⟨1, 0⟩, List.mem_cons_self, 0, fun m lt => absurd lt (Nat.not_lt_zero m), ?_⟩
    decide +kernel
  · apply submarine.2.2
    apply (shipDestroyed_hit _).mp
    · decide +kernel
    · decide +kernel

/-- The shot at a submarine reads behind `dirs`. -/
theorem registerShot_reads_behind_dirs :
    openingField.isValidStartField = true ∧
      Checked.registerShot openingField 11 ⟨0, 4⟩ = .error (.dirs 4) ∧
      ¬∀ (f : GameField) (point : Point) (turns : Nat), fldSz < turns →
        ∃ answer, Checked.registerShot f turns point = .ok answer := by
  have fault : Checked.registerShot openingField 11 ⟨0, 4⟩ = .error (.dirs 4) := by
    rw [Checked.registerShot_hit (by decide +kernel) (by decide), if_pos (by decide +kernel)]
  refine ⟨by decide +kernel, fault, fun always => ?_⟩
  obtain ⟨answer, done⟩ := always openingField ⟨0, 4⟩ 11 (by decide)
  rw [fault] at done
  contradiction

end GameField
end Battleship
