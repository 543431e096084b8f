import Battleship.ShotSubscripts

/-! The check of a start field with every subscript checked, and in the order in which the
code evaluates its conditions. The loops of the scan read the cell before they test the
bound; all other loops stay in their arrays. -/
namespace Battleship.GameField

open Runs

def shipAt (shipArr : List Ship) (i : Nat) : Except IndexFault Ship :=
  match shipArr[i]? with
  | some ship => .ok ship
  | none => .error (.shipArr i)

def addShip (shipArr : List Ship) (ship : Ship) : Except IndexFault (List Ship) :=
  if shipArr.length < maxShipCount then .ok (shipArr ++ [ship])
  else .error (.shipArr shipArr.length)

def deltaAt (deltas : List Point) (k : Nat) : Except IndexFault Point :=
  match deltas[k]? with
  | some delta => .ok delta
  | none => .error (.delta k)

namespace Checked

def rowAll (f : GameField) (test : Cell → Bool) (i : Nat) : Nat → Nat → Except IndexFault Bool
  | 0, _ => .error .running
  | left + 1, j =>
      if j < fldSz then do
        let cell ← f.cell i j
        if test cell then rowAll f test i left (j + 1) else .ok false
      else .ok true

def allCells (f : GameField) (test : Cell → Bool) (turns : Nat) :
    Nat → Nat → Except IndexFault Bool
  | 0, _ => .error .running
  | left + 1, i =>
      if i < fldSz then do
        let row ← rowAll f test i turns 0
        if row then allCells f test turns left (i + 1) else .ok false
      else .ok true

def isEmpty (f : GameField) (turns : Nat) : Except IndexFault Bool :=
  allCells f (fun cell => decide (cell = CellState.empty.toCell)) turns turns 0

def isCellValuesValid (f : GameField) (turns : Nat) : Except IndexFault Bool :=
  allCells f (fun cell =>
    !decide (cell < CellState.empty.toCell ∨ cell > CellState.missed.toCell)) turns turns 0

def runFrom (read : Nat → Except IndexFault Cell) : Nat → Nat → Except IndexFault Nat
  | 0, _ => .error .running
  | left + 1, k => do
      let cell ← read k
      if cell ≠ CellState.empty.toCell ∧ k < fldSz then runFrom read left (k + 1) else .ok k

def rowEnd (tmp : GameField) (i : Nat) : Nat → Nat → Except IndexFault Nat :=
  runFrom fun j => tmp.cell i j

def columnEnd (tmp : GameField) (j : Nat) : Nat → Nat → Except IndexFault Nat :=
  runFrom fun i => tmp.cell i j

def scanShip (tmp : GameField) (turns i j : Nat) : Except IndexFault (Option (Ship × Nat)) := do
  let stop ← rowEnd tmp i turns j
  let j' := stop - 1
  let ship := Ship.ofEnds ⟨j, i⟩ ⟨j', i⟩
  if ship.type = .invalid then .ok none
  else if ship.type ≠ .submarine then .ok (some (ship, j'))
  else do
    let bottom ← columnEnd tmp j' turns i
    let i' := bottom - 1
    if i' ≠ i then
      let ship := Ship.ofEnds ⟨j, i⟩ ⟨j', i'⟩
      if ship.type = .invalid then .ok none else .ok (some (ship, j'))
    else .ok (some (ship, j'))

/-- The loop of `_remove_ship` over the points of the ship. -/
def eraseCells : List Point → GameField → Except IndexFault GameField
  | [], f => .ok f
  | tmp :: rest, f =>
      if contains tmp then do
        let f ← f.setCell tmp.y tmp.x CellState.empty.toCell
        eraseCells rest f
      else eraseCells rest f

def removeShip (ship : Ship) (f : GameField) : Except IndexFault GameField :=
  if ship.type = .invalid then .ok f else eraseCells ship.cells f

def scanCell (turns i j : Nat) (s : ScanState) : Except IndexFault (Option (Nat × ScanState)) := do
  let cell ← s.tmp.cell i j
  if cell = CellState.empty.toCell then .ok (some (j + 1, s))
  else do
    match ← scanShip s.tmp turns i j with
    | none => .ok none
    | some (ship, j') =>
        -- Found excess ship.
        if s.shipArr.length = maxShipCount then .ok none
        else do
          let shipArr ← addShip s.shipArr ship
          let tmp ← removeShip ship s.tmp
          .ok (some (j' + 1, ⟨tmp, shipArr⟩))

def scanRow (turns i : Nat) : Nat → Nat → ScanState → Except IndexFault (Option ScanState)
  | 0, _, _ => .error .running
  | left + 1, j, s =>
      if j < fldSz then do
        match ← scanCell turns i j s with
        | none => .ok none
        | some (j', s) => scanRow turns i left j' s
      else .ok (some s)

def scanRows (turns : Nat) : Nat → Nat → ScanState → Except IndexFault (Option ScanState)
  | 0, _, _ => .error .running
  | left + 1, i, s =>
      if i < fldSz then do
        match ← scanRow turns i turns 0 s with
        | none => .ok none
        | some s => scanRows turns left (i + 1) s
      else .ok (some s)

/-- `for(int i = 0; i < ship_count; i++)` with a test of `ship_arr[i]`. -/
def allShips (shipArr : List Ship) (test : Ship → Except IndexFault Bool) :
    Nat → Nat → Except IndexFault Bool
  | 0, _ => .error .running
  | left + 1, i =>
      if i < shipArr.length then do
        let ship ← shipAt shipArr i
        let passes ← test ship
        if passes then allShips shipArr test left (i + 1) else .ok false
      else .ok true

def rightFleet (turns : Nat) (shipArr : List Ship) : Except IndexFault Bool := do
  let known ← allShips shipArr (fun ship => .ok (decide (ship.type ≠ .invalid))) turns 0
  if known then
    .ok ([.submarine, .destroyer, .cruiser, .battleship, .aircraftCarrier].all fun type =>
      decide (shipArr.countP (fun ship => ship.type = type) = shipCount type))
  else .ok false

def nbrEmpty (f : GameField) (nbr : Point) : Except IndexFault Bool :=
  if !contains nbr then .ok true
  else do
    let cell ← f.cell nbr.y nbr.x
    .ok (decide (cell = CellState.empty.toCell))

/-- `for(int k = 0; k < count; k++)` over the table of an end or a flank. -/
def nbrsFrom (f : GameField) (deltas : List Point) (count : Nat) (tmp : Point) :
    Nat → Nat → Except IndexFault Bool
  | 0, _ => .error .running
  | left + 1, k =>
      if k < count then do
        let delta ← deltaAt deltas k
        let empty ← nbrEmpty f (tmp + delta)
        if empty then nbrsFrom f deltas count tmp left (k + 1) else .ok false
      else .ok true

def endCount : Nat := 3
def flankCount : Nat := 2

def endApart (f : GameField) (deltas : List Point) (shipEnd tmp : Point) (turns : Nat) :
    Except IndexFault Bool :=
  if tmp = shipEnd then nbrsFrom f deltas endCount tmp turns 0 else .ok true

def apartFrom (f : GameField) (ship : Ship) (turns : Nat) : List Point → Except IndexFault Bool
  | [] => .ok true
  | tmp :: rest => do
      let headDelta : List Point :=
        if ship.isVertical then [⟨-1, -1⟩, ⟨0, -1⟩, ⟨1, -1⟩] else [⟨-1, -1⟩, ⟨-1, 0⟩, ⟨-1, 1⟩]
      let tailDelta : List Point :=
        if ship.isVertical then [⟨-1, 1⟩, ⟨0, 1⟩, ⟨1, 1⟩] else [⟨1, -1⟩, ⟨1, 0⟩, ⟨1, 1⟩]
      let flankDelta : List Point :=
        if ship.isVertical then [⟨-1, 0⟩, ⟨1, 0⟩] else [⟨0, -1⟩, ⟨0, 1⟩]
      let head ← endApart f headDelta ship.head tmp turns
      if !head then .ok false
      else do
        let tail ← endApart f tailDelta ship.tail tmp turns
        if !tail then .ok false
        else do
          let flank ← nbrsFrom f flankDelta flankCount tmp turns 0
          if flank then apartFrom f ship turns rest else .ok false

def shipApart (f : GameField) (turns : Nat) (ship : Ship) : Except IndexFault Bool :=
  apartFrom f ship turns ship.cells

def isValidField (f : GameField) (turns : Nat) : Except IndexFault Bool := do
  let values ← isCellValuesValid f turns
  if !values then .ok false
  else do
    match ← scanRows turns turns 0 ⟨f, []⟩ with
    | none => .ok false
    | some s =>
        if s.shipArr.length ≠ maxShipCount then .ok false
        else do
          let right ← rightFleet turns s.shipArr
          if !right then .ok false else allShips s.shipArr (shipApart f turns) turns 0

def isValidStartField (f : GameField) (turns : Nat) : Except IndexFault Bool := do
  let empty ← isEmpty f turns
  if empty then .ok false
  else do
    let valid ← isValidField f turns
    if !valid then .ok false
    else allCells f (fun cell => decide
      (cell = CellState.empty.toCell ∨ cell = CellState.unharmed.toCell)) turns turns 0

end Checked

theorem cell_eq (f : GameField) {i j : Nat} (row : i < fldSz) (column : j < fldSz) :
    f.cell i j = .ok (f.at' ⟨j, i⟩) :=
  cell_inside (inside_cell ⟨i, row⟩ ⟨j, column⟩)

theorem cell_outside (f : GameField) {i j : Nat} (outside : fldSz ≤ i ∨ fldSz ≤ j) :
    f.cell i j = .error (.field i j) := by
  apply if_neg
  unfold Inside
  simp only
  omega

theorem Checked.rowAll_eq (f : GameField) (test : Cell → Bool) {i : Nat} (row : i < fldSz)
    {left j : Nat} (enough : fldSz - j < left) :
    ∃ answer, Checked.rowAll f test i left j = .ok answer ∧
      (answer = true ↔ ∀ x : Nat, j ≤ x → x < fldSz → test (f.at' ⟨x, i⟩) = true) := by
  induction left generalizing j with
  | zero => omega
  | succ left ih =>
      rw [Checked.rowAll]
      by_cases column : j < fldSz
      · rw [if_pos column, cell_eq f row column]
        simp only [Bind.bind, Except.bind]
        by_cases passes : test (f.at' ⟨j, i⟩) = true
        · rw [if_pos passes]
          obtain ⟨answer, done, all⟩ := ih (show fldSz - (j + 1) < left by omega)
          refine ⟨answer, done, all.trans ⟨fun rest x low high => ?_, fun rest x low high => ?_⟩⟩
          · rcases Nat.eq_or_lt_of_le low with rfl | later
            · exact passes
            · exact rest x later high
          · exact rest x (Nat.le_of_succ_le low) high
        · rw [if_neg passes]
          refine ⟨false, rfl, iff_of_false Bool.false_ne_true fun all => ?_⟩
          exact passes (all j le_rfl column)
      · rw [if_neg column]
        exact ⟨true, rfl, iff_of_true rfl fun x low high => by omega⟩

theorem Checked.allCells_eq (f : GameField) (test : Cell → Bool) {turns : Nat}
    (wide : fldSz < turns) {left i : Nat} (enough : fldSz - i < left) :
    ∃ answer, Checked.allCells f test turns left i = .ok answer ∧
      (answer = true ↔ ∀ y x : Nat, i ≤ y → y < fldSz → x < fldSz →
        test (f.at' ⟨x, y⟩) = true) := by
  induction left generalizing i with
  | zero => omega
  | succ left ih =>
      rw [Checked.allCells]
      by_cases row : i < fldSz
      · obtain ⟨first, here, whole⟩ := Checked.rowAll_eq f test row (show fldSz - 0 < turns from wide)
        rw [if_pos row, here]
        simp only [Bind.bind, Except.bind]
        by_cases passes : first = true
        · rw [if_pos passes]
          obtain ⟨answer, done, all⟩ := ih (show fldSz - (i + 1) < left by omega)
          refine ⟨answer, done, all.trans
            ⟨fun rest y x low high column => ?_, fun rest y x low => ?_⟩⟩
          · rcases Nat.eq_or_lt_of_le low with rfl | later
            · exact whole.mp passes x (Nat.zero_le x) column
            · exact rest y x later high column
          · exact rest y x (Nat.le_of_succ_le low)
        · rw [if_neg passes]
          refine ⟨false, rfl, iff_of_false Bool.false_ne_true fun all => ?_⟩
          exact passes (whole.mpr fun x _ column => all i x le_rfl row column)
      · rw [if_neg row]
        exact ⟨true, rfl, iff_of_true rfl fun y x low high => by omega⟩

theorem Checked.allCells_zero (f : GameField) (test : Cell → Bool) {turns : Nat}
    (wide : fldSz < turns) :
    ∃ answer, Checked.allCells f test turns turns 0 = .ok answer ∧
      (answer = true ↔ ∀ y x, test (f.field y x) = true) := by
  obtain ⟨answer, done, all⟩ := Checked.allCells_eq f test wide (show fldSz - 0 < turns from wide)
  refine ⟨answer, done, all.trans ⟨fun each y x => ?_, fun each y x _ row column => ?_⟩⟩
  · have here := each y.val x.val (Nat.zero_le _) y.isLt x.isLt
    rwa [at'_cell] at here
  · have here := each ⟨y, row⟩ ⟨x, column⟩
    rwa [← at'_cell] at here

theorem Checked.isEmpty_eq (f : GameField) {turns : Nat} (wide : fldSz < turns) :
    Checked.isEmpty f turns = .ok f.isEmpty := by
  obtain ⟨answer, done, all⟩ := Checked.allCells_zero f
    (fun cell => decide (cell = CellState.empty.toCell)) wide
  rw [Checked.isEmpty, done]
  congr 1
  rw [Bool.eq_iff_iff, all, GameField.isEmpty]
  simp only [decide_eq_true_eq]

theorem Checked.isCellValuesValid_eq (f : GameField) {turns : Nat} (wide : fldSz < turns) :
    Checked.isCellValuesValid f turns = .ok f.isCellValuesValid := by
  obtain ⟨answer, done, all⟩ := Checked.allCells_zero f (fun cell =>
    !decide (cell < CellState.empty.toCell ∨ cell > CellState.missed.toCell)) wide
  rw [Checked.isCellValuesValid, done]
  congr 1
  rw [Bool.eq_iff_iff, all, GameField.isCellValuesValid]
  simp only [Bool.not_eq_true', decide_eq_false_iff_not, decide_eq_true_eq]

theorem Checked.allShips_eq {shipArr : List Ship} {test : Ship → Except IndexFault Bool}
    (passes : Ship → Bool) (tests : ∀ ship, test ship = .ok (passes ship)) {left i : Nat}
    (enough : shipArr.length - i < left) :
    Checked.allShips shipArr test left i = .ok ((shipArr.drop i).all passes) := by
  induction left generalizing i with
  | zero => omega
  | succ left ih =>
      rw [Checked.allShips]
      by_cases more : i < shipArr.length
      · have at_ : shipAt shipArr i = .ok shipArr[i] := by
          rw [shipAt, List.getElem?_eq_getElem more]
        rw [if_pos more, at_, List.drop_eq_getElem_cons more, List.all_cons]
        simp only [Bind.bind, Except.bind, tests]
        cases passes shipArr[i] with
        | true => exact ih (by omega)
        | false => rfl
      · rw [if_neg more, List.drop_eq_nil_of_le (Nat.not_lt.mp more)]
        rfl

theorem Checked.rightFleet_eq {shipArr : List Ship} {turns : Nat} (enough : shipArr.length < turns) :
    Checked.rightFleet turns shipArr = .ok (GameField.rightFleet shipArr) := by
  have known := Checked.allShips_eq (fun ship : Ship => decide (ship.type ≠ .invalid))
    (fun _ => rfl) (show shipArr.length - 0 < turns from enough)
  rw [Checked.rightFleet, known, GameField.rightFleet, List.drop_zero]
  simp only [Bind.bind, Except.bind]
  cases shipArr.all fun ship => decide (ship.type ≠ .invalid) with
  | true => rfl
  | false => rfl

theorem Checked.nbrEmpty_eq (f : GameField) (nbr : Point) :
    Checked.nbrEmpty f nbr = .ok (f.nbrEmpty nbr) := by
  unfold Checked.nbrEmpty GameField.nbrEmpty
  by_cases inside : Inside nbr
  · rw [if_neg (by simp [contains, inside]), cell_inside inside, contains_iff.mpr inside]
    rfl
  · rw [if_pos (by simp [contains, inside])]
    simp [contains, inside]

theorem Checked.nbrsFrom_eq (f : GameField) (deltas : List Point) (tmp : Point) {left k : Nat}
    (enough : deltas.length - k < left) :
    Checked.nbrsFrom f deltas deltas.length tmp left k =
      .ok ((deltas.drop k).all fun d => f.nbrEmpty (tmp + d)) := by
  induction left generalizing k with
  | zero => omega
  | succ left ih =>
      rw [Checked.nbrsFrom]
      by_cases more : k < deltas.length
      · have at_ : deltaAt deltas k = .ok deltas[k] := by
          rw [deltaAt, List.getElem?_eq_getElem more]
        rw [if_pos more, at_, List.drop_eq_getElem_cons more, List.all_cons]
        simp only [Bind.bind, Except.bind, Checked.nbrEmpty_eq]
        cases f.nbrEmpty (tmp + deltas[k]) with
        | true => exact ih (by omega)
        | false => rfl
      · rw [if_neg more, List.drop_eq_nil_of_le (Nat.not_lt.mp more)]
        rfl

theorem Checked.endApart_eq (f : GameField) {deltas : List Point} (three : deltas.length = endCount)
    (shipEnd tmp : Point) {turns : Nat} (enough : endCount < turns) :
    Checked.endApart f deltas shipEnd tmp turns =
      .ok (!decide (tmp = shipEnd) || deltas.all fun d => f.nbrEmpty (tmp + d)) := by
  unfold Checked.endApart
  by_cases here : tmp = shipEnd
  · have all := Checked.nbrsFrom_eq f deltas tmp (show deltas.length - 0 < turns by omega)
    rw [three] at all
    rw [if_pos here, all]
    simp [here]
  · rw [if_neg here]
    simp [here]

theorem Checked.tests_eq (head tail flank rest : Bool) :
    (if !head then .ok false else if !tail then .ok false else if flank then .ok rest else .ok false) =
      (.ok ((head && tail && flank) && rest) : Except IndexFault Bool) := by
  cases head <;> cases tail <;> cases flank <;> rfl

theorem Checked.shipApart_eq (f : GameField) {turns : Nat} (enough : endCount < turns) (ship : Ship) :
    Checked.shipApart f turns ship = .ok (f.shipApart ship) := by
  unfold Checked.shipApart GameField.shipApart
  induction ship.cells with
  | nil => rfl
  | cons tmp rest ih =>
      have three (a b c a' b' c' : Point) :
          (if ship.isVertical then [a, b, c] else [a', b', c']).length = endCount := by
        split_ifs <;> rfl
      have flank (a b a' b' : Point) :
          Checked.nbrsFrom f (if ship.isVertical then [a, b] else [a', b']) flankCount tmp turns 0 =
            .ok ((if ship.isVertical then [a, b] else [a', b']).all fun d =>
              f.nbrEmpty (tmp + d)) := by
        have two : (if ship.isVertical then [a, b] else [a', b']).length = flankCount := by
          split_ifs <;> rfl
        have short : (if ship.isVertical then [a, b] else [a', b']).length - 0 < turns := by
          rw [two]
          exact Nat.lt_trans (by decide) enough
        have all := Checked.nbrsFrom_eq f (if ship.isVertical then [a, b] else [a', b']) tmp short
        rwa [two, List.drop_zero] at all
      dsimp only at ih
      dsimp only [Checked.apartFrom]
      rw [List.all_cons, Checked.endApart_eq f (three ..) _ _ enough,
        Checked.endApart_eq f (three ..) _ _ enough, flank, ih]
      simp only [Bind.bind, Except.bind]
      exact Checked.tests_eq ..

def RowFull (tmp : GameField) (i j : Nat) : Prop :=
  ∀ x : Nat, j ≤ x → x < fldSz → tmp.at' ⟨x, i⟩ ≠ 0

def ColumnFull (tmp : GameField) (i j : Nat) : Prop :=
  ∀ y : Nat, i ≤ y → y < fldSz → tmp.at' ⟨j, y⟩ ≠ 0

/-- The run of the cell comes to the edge of the field: its row does, or if it is alone there
its column. -/
def Overruns (tmp : GameField) (i j : Nat) : Prop :=
  RowFull tmp i j ∨ tmp.at' ⟨(j + 1 : Nat), i⟩ = 0 ∧ ColumnFull tmp i j

/-- The read of the cell behind a row or a column. -/
def BehindEdge (fault : IndexFault) : Prop :=
  ∃ k < fldSz, fault = .field k fldSz ∨ fault = .field fldSz k

section Scan
variable (past : Nat → Nat → Cell)

/-- The loop faults when the run comes to the edge, and else ends where it should. -/
theorem Checked.runFrom_cases {read : Nat → Except IndexFault Cell} {value : Nat → Cell}
    {fault : IndexFault} (inside : ∀ k < fldSz, read k = .ok (value k))
    (outside : read fldSz = .error fault) (goes : Nat → Prop) [DecidablePred goes]
    (same : ∀ k < fldSz, goes k ↔ value k ≠ 0) {left fuel k : Nat} (low : k ≤ fldSz)
    (enough : fldSz - k < left) (enough' : fldSz - k ≤ fuel) :
    ((∀ x, k ≤ x → x < fldSz → value x ≠ 0) ∧ Checked.runFrom read left k = .error fault) ∨
      (¬(∀ x, k ≤ x → x < fldSz → value x ≠ 0) ∧
        Checked.runFrom read left k = .ok (runEnd goes fuel k)) := by
  induction left generalizing k fuel with
  | zero => omega
  | succ left ih =>
      rw [Checked.runFrom]
      rcases Nat.eq_or_lt_of_le low with rfl | more
      · rw [outside]
        exact .inl ⟨fun x atLeast below => by omega, rfl⟩
      · obtain ⟨fuel, rfl⟩ := exists_turn (show 0 < fuel by omega)
        rw [inside k more, runEnd]
        simp only [Bind.bind, Except.bind]
        by_cases taken : value k ≠ 0
        · rw [if_pos ⟨taken, more⟩, if_pos ((same k more).mpr taken)]
          have whole : (∀ x, k ≤ x → x < fldSz → value x ≠ 0) ↔
              ∀ x, k + 1 ≤ x → x < fldSz → value x ≠ 0 := by
            constructor
            · exact fun all x atLeast => all x (Nat.le_of_succ_le atLeast)
            · intro all x atLeast below
              rcases Nat.eq_or_lt_of_le atLeast with rfl | later
              · exact taken
              · exact all x later below
          rw [whole]
          exact ih more (by omega) (by omega)
        · rw [if_neg fun both => taken both.1, if_neg fun goes => taken ((same k more).mp goes)]
          exact .inr ⟨fun all => taken (all k le_rfl more), rfl⟩

theorem Checked.rowEnd_cases (tmp : GameField) {i j turns : Nat} (row : i < fldSz)
    (column : j < fldSz) (wide : fldSz < turns) :
    (RowFull tmp i j ∧ Checked.rowEnd tmp i turns j = .error (.field i fldSz)) ∨
      (¬RowFull tmp i j ∧
        Checked.rowEnd tmp i turns j = .ok (GameField.rowEnd past tmp i fldSz j)) := by
  rw [rowEnd_eq_runEnd]
  apply Checked.runFrom_cases (fun k below => cell_eq tmp row below)
    (cell_outside tmp (.inr le_rfl))
  · intro k below
    rw [readAt_inside past tmp row below]
    exact and_iff_left below
  · exact column.le
  · exact Nat.lt_of_le_of_lt (Nat.sub_le ..) wide
  · exact Nat.sub_le ..

theorem Checked.columnEnd_cases (tmp : GameField) {i j turns : Nat} (row : i < fldSz)
    (column : j < fldSz) (wide : fldSz < turns) :
    (ColumnFull tmp i j ∧ Checked.columnEnd tmp j turns i = .error (.field fldSz j)) ∨
      (¬ColumnFull tmp i j ∧
        Checked.columnEnd tmp j turns i = .ok (GameField.columnEnd past tmp j fldSz i)) := by
  rw [columnEnd_eq_runEnd]
  apply Checked.runFrom_cases (fun k below => cell_eq tmp below column)
    (cell_outside tmp (.inl le_rfl))
  · intro k below
    rw [readAt_inside past tmp below column]
    exact and_iff_left below
  · exact row.le
  · exact Nat.lt_of_le_of_lt (Nat.sub_le ..) wide
  · exact Nat.sub_le ..

theorem rowEnd_alone (tmp : GameField) {i j : Nat} (row : i < fldSz) (column : j < fldSz)
    (taken : tmp.at' ⟨j, i⟩ ≠ 0) :
    rowEnd past tmp i fldSz j = j + 1 ↔ tmp.at' ⟨(j + 1 : Nat), i⟩ = 0 := by
  constructor
  · intro stop
    by_cases more : j + 1 < fldSz
    · have stops := (runEnd_spec
        (fun x => readAt past tmp i x ≠ CellState.empty.toCell ∧ x < fldSz) fldSz j).2.2
      rw [← rowEnd_eq_runEnd, stop, readAt_inside past tmp row more] at stops
      by_contra other
      exact stops (by simp [fldSz]) ⟨other, more⟩
    · have outside : ¬Inside ⟨((j + 1 : Nat) : Int), (i : Int)⟩ := by
        unfold Inside
        simp only
        omega
      exact dif_neg outside
  · intro empty
    apply rowEnd_eq past tmp row (Nat.le_succ j) column
    · intro x low high
      obtain rfl : x = j := by omega
      exact taken
    · exact fun _ => empty

/-- The ship is found as without the checks, but for a run that comes to the edge. -/
theorem Checked.scanShip_cases (tmp : GameField) {i j turns : Nat} (row : i < fldSz)
    (column : j < fldSz) (wide : fldSz < turns) (taken : tmp.at' ⟨j, i⟩ ≠ 0) :
    (Overruns tmp i j ∧ ∃ fault, BehindEdge fault ∧
        Checked.scanShip tmp turns i j = .error fault) ∨
      (¬Overruns tmp i j ∧
        Checked.scanShip tmp turns i j = .ok (GameField.scanShip past tmp i j)) := by
  have alone := rowEnd_alone past tmp row column taken
  unfold Checked.scanShip GameField.scanShip Overruns
  rcases Checked.rowEnd_cases past tmp row column wide with ⟨full, across⟩ | ⟨part, across⟩
  · rw [across]
    exact .inl ⟨.inl full, _, ⟨i, row, .inl rfl⟩, rfl⟩
  · have moves : j < GameField.rowEnd past tmp i fldSz j := by
      apply rowEnd_moves past tmp column
      rw [readAt_inside past tmp row column]
      exact taken
    rw [across, ← alone]
    simp only [Bind.bind, Except.bind]
    generalize GameField.rowEnd past tmp i fldSz j = stop at *
    by_cases single : stop = j + 1
    · -- the loop down the column follows
      subst single
      have submarine : (Ship.ofEnds ⟨(j : Int), i⟩ ⟨((j + 1 - 1 : Nat) : Int), i⟩).type = .submarine := by
        simp [Ship.ofEnds]
      rw [if_neg (by rw [submarine]; decide), if_neg (by rw [submarine]; decide),
        if_neg (by rw [submarine]; decide), if_neg (by rw [submarine]; decide)]
      rcases Checked.columnEnd_cases past tmp row column wide with ⟨full, down⟩ | ⟨rest, down⟩
      · rw [Nat.add_sub_cancel, down]
        exact .inl ⟨.inr ⟨rfl, full⟩, _, ⟨j, column, .inr rfl⟩, rfl⟩
      · rw [Nat.add_sub_cancel, down]
        refine .inr ⟨fun overruns => overruns.elim part fun both => rest both.2, ?_⟩
        dsimp only
        split_ifs <;> rfl
    · have several : (Ship.ofEnds ⟨(j : Int), i⟩ ⟨((stop - 1 : Nat) : Int), i⟩).type ≠ .submarine := by
        rw [Ship.ofEnds_row (i : Int) (by omega)]
        unfold shipType
        split_ifs with one
        · omega
        all_goals simp
      refine .inr ⟨fun overruns => overruns.elim part fun both => single both.1, ?_⟩
      split_ifs <;> rfl

end Scan

theorem Checked.eraseCells_eq (cells : List Point) (f : GameField) :
    Checked.eraseCells cells f = .ok (cells.foldl (fun f tmp =>
      if contains tmp then f.put tmp CellState.empty.toCell else f) f) := by
  induction cells generalizing f with
  | nil => rfl
  | cons tmp rest ih =>
      rw [Checked.eraseCells, List.foldl_cons]
      by_cases inside : Inside tmp
      · rw [if_pos (contains_iff.mpr inside), if_pos (contains_iff.mpr inside),
          setCell_inside inside]
        exact ih _
      · rw [if_neg (by simp [contains, inside]), if_neg (by simp [contains, inside])]
        exact ih f

theorem Checked.removeShip_eq (ship : Ship) (f : GameField) :
    Checked.removeShip ship f = .ok (GameField.removeShip ship f) := by
  unfold Checked.removeShip GameField.removeShip
  split_ifs
  · rfl
  · exact Checked.eraseCells_eq ship.cells f

/-- A turn faults when it comes to a cell whose run overruns, and else does what it should. -/
theorem Checked.scanCell_cases (past : Nat → Nat → Cell) (s : ScanState) {i j turns : Nat}
    (row : i < fldSz) (column : j < fldSz) (wide : fldSz < turns)
    (room : s.shipArr.length ≤ maxShipCount) :
    (s.tmp.at' ⟨j, i⟩ ≠ 0 ∧ Overruns s.tmp i j ∧
        ∃ fault, BehindEdge fault ∧ Checked.scanCell turns i j s = .error fault) ∨
      (¬(s.tmp.at' ⟨j, i⟩ ≠ 0 ∧ Overruns s.tmp i j) ∧
        Checked.scanCell turns i j s = .ok (GameField.scanCell past i j s)) := by
  have read := readAt_inside past s.tmp row column
  unfold Checked.scanCell GameField.scanCell
  rw [cell_eq s.tmp row column, read]
  simp only [Bind.bind, Except.bind]
  by_cases empty : s.tmp.at' ⟨j, i⟩ = CellState.empty.toCell
  · rw [if_pos empty, if_pos empty]
    exact .inr ⟨fun both => both.1 empty, rfl⟩
  · rw [if_neg empty, if_neg empty]
    rcases Checked.scanShip_cases past s.tmp row column wide empty with
      ⟨overruns, fault, behind, reads⟩ | ⟨stays, found⟩
    · rw [reads]
      exact .inl ⟨empty, overruns, fault, behind, rfl⟩
    · rw [found]
      refine .inr ⟨fun both => stays both.2, ?_⟩
      cases GameField.scanShip past s.tmp i j with
      | none => rfl
      | some next =>
          obtain ⟨ship, j'⟩ := next
          simp only [Option.bind_some, Checked.removeShip_eq, addShip]
          split_ifs with excess fits
          · rfl
          · rfl
          · exact absurd (lt_of_le_of_ne room excess) fits

end Battleship.GameField
