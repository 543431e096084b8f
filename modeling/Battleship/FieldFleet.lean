import Battleship.FieldShots

/-! What the start-field check establishes. The scan erases every ship it finds
from its working copy, so the empty cells of the copy grow by the ship's length
and at the end the whole copy is empty: the lengths of the seven ships add up
to the number of cells that were taken, eighteen. -/
namespace Battleship

theorem Ship.ofEnds_row {x x' : Int} (y : Int) (ordered : x ≤ x') :
    Ship.ofEnds ⟨x, y⟩ ⟨x', y⟩ = ⟨shipType (x' - x + 1), ⟨x, y⟩, ⟨x', y⟩⟩ := by
  by_cases same : x = x'
  · subst same
    simp [Ship.ofEnds, shipType]
  · have positive : ¬ (x' - x + 1 < 0) := by omega
    simp [Ship.ofEnds, same, positive]

theorem Ship.ofEnds_column (x : Int) {y y' : Int} (ordered : y ≤ y') :
    Ship.ofEnds ⟨x, y⟩ ⟨x, y'⟩ = ⟨shipType (y' - y + 1), ⟨x, y⟩, ⟨x, y'⟩⟩ := by
  by_cases same : y = y'
  · subst same
    simp [Ship.ofEnds, shipType]
  · have positive : ¬ (y' - y + 1 < 0) := by omega
    simp [Ship.ofEnds, same, positive]

theorem shipLength_of_known {len : Int} (positive : 0 < len)
    (known : shipType len ≠ .invalid) : (shipLength (shipType len) : Int) = len := by
  obtain ⟨n, rfl⟩ := Int.eq_ofNat_of_zero_le (Int.le_of_lt positive)
  rw [shipLength_shipType known]

theorem Ship.mem_cells_row {x x' y : Int} (several : x < x')
    (known : shipType (x' - x + 1) ≠ .invalid) (point : Point) :
    point ∈ (⟨shipType (x' - x + 1), ⟨x, y⟩, ⟨x', y⟩⟩ : Ship).cells ↔
      point.y = y ∧ x ≤ point.x ∧ point.x ≤ x' := by
  have length := shipLength_of_known (by omega) known
  have across : x ≠ x' := by omega
  simp only [Ship.cells, Ship.getDelta, Ship.isVertical, Ship.getLength, known, across,
    mem_cellsFrom, decide_false, Bool.false_eq_true, ↓reduceIte]
  constructor
  · rintro ⟨k, inside, atX, atY⟩
    omega
  · rintro ⟨atY, low, high⟩
    exact ⟨(point.x - x).toNat, by omega, by omega, by omega⟩

theorem Ship.mem_cells_column {x y y' : Int} (ordered : y ≤ y')
    (known : shipType (y' - y + 1) ≠ .invalid) (point : Point) :
    point ∈ (⟨shipType (y' - y + 1), ⟨x, y⟩, ⟨x, y'⟩⟩ : Ship).cells ↔
      point.x = x ∧ y ≤ point.y ∧ point.y ≤ y' := by
  have length := shipLength_of_known (by omega) known
  simp only [Ship.cells, Ship.getDelta, Ship.isVertical, Ship.getLength, known,
    mem_cellsFrom, decide_true, ↓reduceIte]
  constructor
  · rintro ⟨k, inside, atX, atY⟩
    omega
  · rintro ⟨atX, low, high⟩
    exact ⟨(point.y - y).toNat, by omega, by omega, by omega⟩

theorem cellsFrom_nodup {delta : Point} (moves : delta.x = 1 ∨ delta.y = 1) (len : Nat)
    (start : Point) : (cellsFrom delta len start).Nodup := by
  induction len generalizing start with
  | zero => simp [cellsFrom]
  | succ len ih =>
      refine List.nodup_cons.mpr ⟨?_, ih _⟩
      rw [mem_cellsFrom]
      rintro ⟨k, _, atX, atY⟩
      simp only [Point.add_x, Point.add_y] at atX atY
      rcases moves with move | move
      · rw [move] at atX
        omega
      · rw [move] at atY
        omega

theorem Ship.cells_nodup {ship : Ship} (known : ship.type ≠ .invalid) : ship.cells.Nodup := by
  apply cellsFrom_nodup
  unfold Ship.getDelta
  rw [if_neg known]
  split
  · exact Or.inr rfl
  · exact Or.inl rfl

namespace GameField

theorem erase_cells (cells : List Point) (f : GameField)
    (inside : ∀ cell ∈ cells, Inside cell) (point : Point) :
    (cells.foldl (fun f tmp => if contains tmp then f.put tmp CellState.empty.toCell else f)
        f).at' point = if point ∈ cells then 0 else f.at' point := by
  induction cells generalizing f with
  | nil => simp
  | cons cell rest ih =>
      have here := inside cell List.mem_cons_self
      simp only [List.foldl_cons, contains_iff.mpr here, ↓reduceIte]
      rw [ih _ (fun c member => inside c (List.mem_cons_of_mem cell member)), at'_put f here]
      by_cases later : point ∈ rest <;> by_cases same : point = cell <;>
        simp [later, same, CellState.toCell]

theorem count_erase_cells (cells : List Point) (f : GameField) (unique : cells.Nodup)
    (taken : ∀ cell ∈ cells, Inside cell ∧ f.at' cell ≠ 0) :
    (cells.foldl (fun f tmp => if contains tmp then f.put tmp CellState.empty.toCell else f)
        f).count 0 = f.count 0 + cells.length := by
  induction cells generalizing f with
  | nil => rfl
  | cons cell rest ih =>
      obtain ⟨here, whole⟩ := taken cell List.mem_cons_self
      obtain ⟨fresh, restUnique⟩ := List.nodup_cons.mp unique
      simp only [List.foldl_cons, contains_iff.mpr here, ↓reduceIte]
      rw [ih _ restUnique]
      · have step := count_put f here CellState.empty.toCell 0
        simp only [whole, CellState.toCell, ↓reduceIte] at step ⊢
        simp only [List.length_cons]
        omega
      · intro other member
        obtain ⟨within, nonempty⟩ := taken other (List.mem_cons_of_mem cell member)
        have different : other ≠ cell := fun same => fresh (same ▸ member)
        exact ⟨within, by simpa [at'_put f here, different] using nonempty⟩

section Scan
variable (past : Nat → Nat → Cell)

theorem readAt_inside (tmp : GameField) {i j : Nat} (row : i < fldSz) (column : j < fldSz) :
    readAt past tmp i j = tmp.at' ⟨j, i⟩ := by
  have inside : Inside ⟨(j : Int), (i : Int)⟩ := inside_cell ⟨i, row⟩ ⟨j, column⟩
  simp [readAt, at', row, column, inside]

def runEnd (goes : Nat → Prop) [DecidablePred goes] : Nat → Nat → Nat
  | 0, k => k
  | fuel + 1, k => if goes k then runEnd goes fuel (k + 1) else k

section RunEnd
variable (goes : Nat → Prop) [DecidablePred goes]

theorem runEnd_spec (fuel k : Nat) :
    k ≤ runEnd goes fuel k ∧ (∀ x, k ≤ x → x < runEnd goes fuel k → goes x) ∧
      (runEnd goes fuel k < k + fuel → ¬ goes (runEnd goes fuel k)) := by
  induction fuel generalizing k with
  | zero => exact ⟨le_refl k, fun x low high => absurd high (not_lt.mpr low), fun less => by
      exact absurd less (lt_irrefl _)⟩
  | succ fuel ih =>
      rw [runEnd]
      split_ifs with here
      · obtain ⟨low, all, stops⟩ := ih (k + 1)
        refine ⟨by omega, fun x atLeast below => ?_, fun less => stops (by omega)⟩
        by_cases same : x = k
        · exact same ▸ here
        · exact all x (by omega) below
      · exact ⟨le_refl k, fun x low high => absurd high (not_lt.mpr low), fun _ => here⟩

theorem runEnd_eq {fuel k stop : Nat} (low : k ≤ stop) (high : stop ≤ k + fuel)
    (all : ∀ x, k ≤ x → x < stop → goes x) (ends : ¬ goes stop) :
    runEnd goes fuel k = stop := by
  obtain ⟨start, before, stops⟩ := runEnd_spec goes fuel k
  rcases Nat.lt_trichotomy (runEnd goes fuel k) stop with early | same | late
  · exact absurd (all _ start early) (stops (by omega))
  · exact same
  · exact absurd (before stop low late) ends

end RunEnd

theorem rowEnd_eq_runEnd (tmp : GameField) (i fuel j : Nat) :
    rowEnd past tmp i fuel j =
      runEnd (fun x => readAt past tmp i x ≠ CellState.empty.toCell ∧ x < fldSz) fuel j := by
  induction fuel generalizing j with
  | zero => rfl
  | succ fuel ih => rw [rowEnd, runEnd, ih]

theorem columnEnd_eq_runEnd (tmp : GameField) (j fuel i : Nat) :
    columnEnd past tmp j fuel i =
      runEnd (fun y => readAt past tmp y j ≠ CellState.empty.toCell ∧ y < fldSz) fuel i := by
  induction fuel generalizing i with
  | zero => rfl
  | succ fuel ih => rw [columnEnd, runEnd, ih]

theorem rowEnd_spec (tmp : GameField) {i : Nat} (row : i < fldSz) (fuel j : Nat)
    (start : j ≤ fldSz) :
    j ≤ rowEnd past tmp i fuel j ∧ rowEnd past tmp i fuel j ≤ fldSz ∧
      ∀ x : Nat, j ≤ x → x < rowEnd past tmp i fuel j → tmp.at' ⟨x, i⟩ ≠ 0 := by
  rw [rowEnd_eq_runEnd]
  obtain ⟨low, all, -⟩ := runEnd_spec
    (fun x => readAt past tmp i x ≠ CellState.empty.toCell ∧ x < fldSz) fuel j
  refine ⟨low, ?_, fun x atLeast below => ?_⟩
  · by_contra beyond
    exact lt_irrefl fldSz (all fldSz start (by omega)).2
  · obtain ⟨taken, column⟩ := all x atLeast below
    rwa [readAt_inside past tmp row column] at taken

theorem columnEnd_spec (tmp : GameField) {j : Nat} (column : j < fldSz) (fuel i : Nat)
    (start : i ≤ fldSz) :
    i ≤ columnEnd past tmp j fuel i ∧ columnEnd past tmp j fuel i ≤ fldSz ∧
      ∀ y : Nat, i ≤ y → y < columnEnd past tmp j fuel i → tmp.at' ⟨j, y⟩ ≠ 0 := by
  rw [columnEnd_eq_runEnd]
  obtain ⟨low, all, -⟩ := runEnd_spec
    (fun y => readAt past tmp y j ≠ CellState.empty.toCell ∧ y < fldSz) fuel i
  refine ⟨low, ?_, fun y atLeast below => ?_⟩
  · by_contra beyond
    exact lt_irrefl fldSz (all fldSz start (by omega)).2
  · obtain ⟨taken, row⟩ := all y atLeast below
    rwa [readAt_inside past tmp row column] at taken

theorem rowEnd_moves (tmp : GameField) {i j : Nat} (column : j < fldSz)
    (taken : readAt past tmp i j ≠ 0) : j < rowEnd past tmp i fldSz j := by
  rw [rowEnd_eq_runEnd]
  obtain ⟨low, -, stops⟩ := runEnd_spec
    (fun x => readAt past tmp i x ≠ CellState.empty.toCell ∧ x < fldSz) fldSz j
  apply lt_of_le_of_ne low
  intro same
  rw [← same] at stops
  exact stops (by simp [fldSz]) ⟨taken, column⟩

theorem columnEnd_moves (tmp : GameField) {i j : Nat} (row : i < fldSz)
    (taken : readAt past tmp i j ≠ 0) : i < columnEnd past tmp j fldSz i := by
  rw [columnEnd_eq_runEnd]
  obtain ⟨low, -, stops⟩ := runEnd_spec
    (fun y => readAt past tmp y j ≠ CellState.empty.toCell ∧ y < fldSz) fldSz i
  apply lt_of_le_of_ne low
  intro same
  rw [← same] at stops
  exact stops (by simp [fldSz]) ⟨taken, row⟩

/-- The ship that is found lies on taken cells and covers the whole run of the
row, so the scan may go on behind it. -/
theorem scanShip_spec (tmp : GameField) {i j : Nat} (row : i < fldSz) (column : j < fldSz)
    (taken : readAt past tmp i j ≠ 0) {ship : Ship} {j' : Nat}
    (found : scanShip past tmp i j = some (ship, j')) :
    ship.type ≠ .invalid ∧ j ≤ j' ∧ j' < fldSz ∧
      (∀ cell ∈ ship.cells, Inside cell ∧ tmp.at' cell ≠ 0) ∧
      ∀ x : Nat, j ≤ x → x ≤ j' → (⟨x, i⟩ : Point) ∈ ship.cells := by
  obtain ⟨_, rowHigh, rowCells⟩ := rowEnd_spec past tmp row fldSz j (Nat.le_of_lt column)
  have rowMoves := rowEnd_moves past tmp column taken
  unfold scanShip at found
  generalize rowStop : rowEnd past tmp i fldSz j = stop at *
  have castStop : ((stop - 1 : Nat) : Int) = (stop : Int) - 1 := by omega
  simp only [Ship.ofEnds_row (i : Int) (show (j : Int) ≤ ((stop - 1 : Nat) : Int) by omega)]
    at found
  split_ifs at found with invalid several taller tallInvalid
  · -- a horizontal ship
    obtain ⟨rfl, rfl⟩ := by simpa using found
    have longer : (j : Int) < ((stop - 1 : Nat) : Int) := by
      by_contra single
      have : ((stop - 1 : Nat) : Int) - j + 1 = 1 := by omega
      simp [this, shipType] at several
    refine ⟨invalid, by omega, by omega, ?_, ?_⟩
    · intro cell member
      obtain ⟨atY, low, high⟩ := (Ship.mem_cells_row longer invalid cell).mp member
      refine ⟨⟨by omega, by omega, by omega, by omega⟩, ?_⟩
      have := rowCells cell.x.toNat (by omega) (by omega)
      rwa [show (⟨(cell.x.toNat : Int), (i : Int)⟩ : Point) = cell from
        Point.ext' (by simp; omega) (by simp [atY])] at this
    · intro x low high
      exact (Ship.mem_cells_row longer invalid _).mpr ⟨rfl, by simpa using low, by simpa using high⟩
  all_goals
    have single : stop - 1 = j := by
      by_contra longer
      have submarine := not_not.mp several
      have known : shipType (((stop - 1 : Nat) : Int) - j + 1) ≠ .invalid := invalid
      have := shipLength_of_known (by omega) known
      rw [submarine] at this
      simp only [shipLength] at this
      omega
    have columnTaken : readAt past tmp i (stop - 1) ≠ 0 := by rwa [single]
    obtain ⟨_, columnHigh, columnCells⟩ :=
      columnEnd_spec past tmp (show stop - 1 < fldSz by omega) fldSz i (Nat.le_of_lt row)
    have columnMoves := columnEnd_moves past tmp row columnTaken
    generalize columnStop : columnEnd past tmp (stop - 1) fldSz i = bottom at *
  · -- a vertical ship
    obtain ⟨rfl, rfl⟩ := by simpa using found
    rw [single] at *
    have ordered : (i : Int) ≤ ((bottom - 1 : Nat) : Int) := by omega
    simp only [Ship.ofEnds_column (j : Int) ordered] at tallInvalid ⊢
    refine ⟨tallInvalid, by omega, by omega, ?_, ?_⟩
    · intro cell member
      obtain ⟨atX, low, high⟩ := (Ship.mem_cells_column ordered tallInvalid cell).mp member
      refine ⟨⟨by omega, by omega, by omega, by omega⟩, ?_⟩
      have := columnCells cell.y.toNat (by omega) (by omega)
      rwa [show (⟨(j : Int), (cell.y.toNat : Int)⟩ : Point) = cell from
        Point.ext' (by simp [atX]) (by simp; omega)] at this
    · intro x low high
      obtain rfl : x = j := by omega
      exact (Ship.mem_cells_column ordered tallInvalid _).mpr ⟨rfl, by simp, ordered⟩
  · -- a single cell
    obtain ⟨rfl, rfl⟩ := by simpa using found
    rw [single] at *
    have cells : (⟨shipType ((j : Int) - j + 1), ⟨j, i⟩, ⟨j, i⟩⟩ : Ship).cells = [⟨j, i⟩] := by
      simp [shipType, Ship.cells, Ship.getLength, shipLength, cellsFrom]
    refine ⟨by simp [shipType], by omega, by omega, ?_, ?_⟩
    · intro cell member
      rw [cells, List.mem_singleton] at member
      subst member
      exact ⟨inside_cell ⟨i, row⟩ ⟨j, column⟩, rowCells j (Nat.le_refl _) (by omega)⟩
    · intro x low high
      obtain rfl : x = j := by omega
      rw [cells]
      exact List.mem_singleton.mpr rfl

/-- The turn of the scan at column `j`: the column it goes on from and its state then. -/
def scanCell (i j : Nat) (s : ScanState) : Option (Nat × ScanState) :=
  if readAt past s.tmp i j = CellState.empty.toCell then some (j + 1, s)
  else
    (scanShip past s.tmp i j).bind fun found =>
      if s.shipArr.length = maxShipCount then none
      else some (found.2 + 1, ⟨removeShip found.1 s.tmp, s.shipArr ++ [found.1]⟩)

theorem scanRow_succ (i fuel j : Nat) (s : ScanState) :
    scanRow past i (fuel + 1) j s =
      if j < fldSz then (scanCell past i j s).bind fun next => scanRow past i fuel next.1 next.2
      else some s := by
  rw [scanRow, scanCell]
  by_cases column : j < fldSz
  · by_cases empty : readAt past s.tmp i j = CellState.empty.toCell
    · simp only [column, empty, ↓reduceIte, Option.bind_some]
    · simp only [column, empty, ↓reduceIte]
      cases scanShip past s.tmp i j with
      | none => rfl
      | some found =>
          by_cases excess : s.shipArr.length = maxShipCount <;> simp [excess]
  · simp only [column, ↓reduceIte]

/-- What a part of the scan comes to: a result of this kind, or `return false` where
this may be. -/
def Comes {α : Type} (mayFail : Prop) (fact : α → Prop) : Option α → Prop
  | none => mayFail
  | some result => fact result

theorem Comes.bind {α β : Type} {mayFail : Prop} {fact : α → Prop} {fact' : β → Prop}
    {o : Option α} {f : α → Option β} (first : Comes mayFail fact o)
    (next : ∀ result, fact result → Comes mayFail fact' (f result)) :
    Comes mayFail fact' (o.bind f) := by
  cases o with
  | none => exact first
  | some result => exact next result first

section Rule
variable {past} {mayFail : Prop} (Inv : Nat → Nat → ScanState → Prop)

/-- A fact that every turn of the scan passes on is passed on by the row. -/
theorem scanRow_rule {i : Nat}
    (turn : ∀ j s, j < fldSz → Inv i j s →
      Comes mayFail (fun next => j < next.1 ∧ Inv i next.1 next.2) (scanCell past i j s))
    (fuel j : Nat) (enough : fldSz ≤ j + fuel) {s : ScanState} (start : Inv i j s) :
    Comes mayFail (fun s' => ∃ j', fldSz ≤ j' ∧ Inv i j' s') (scanRow past i fuel j s) := by
  induction fuel generalizing j s with
  | zero => exact ⟨j, enough, start⟩
  | succ fuel ih =>
      rw [scanRow_succ]
      split_ifs with column
      · refine (turn j s column start).bind fun next ⟨moves, inv⟩ => ?_
        exact ih next.1 (by omega) inv
      · exact ⟨j, by omega, start⟩

theorem scanRows_rule
    (turn : ∀ i j s, i < fldSz → j < fldSz → Inv i j s →
      Comes mayFail (fun next => j < next.1 ∧ Inv i next.1 next.2) (scanCell past i j s))
    (wrap : ∀ i j s, fldSz ≤ j → Inv i j s → Inv (i + 1) 0 s)
    (rows i : Nat) (enough : i + rows = fldSz) {s : ScanState} (start : Inv i 0 s) :
    Comes mayFail (Inv fldSz 0) (scanRows past rows i s) := by
  induction rows generalizing i s with
  | zero =>
      obtain rfl : i = fldSz := by omega
      exact start
  | succ rows ih =>
      have row := scanRow_rule Inv (fun j s => turn i j s (by omega)) fldSz 0 (by omega) start
      refine row.bind fun s' ⟨j', done, inv⟩ => ?_
      exact ih (i + 1) (by omega) (wrap i j' s' done inv)

end Rule

def fleetCells (shipArr : List Ship) : Nat := (shipArr.map Ship.getLength).sum

/-- Everything before row `i`, column `j` is erased, and what was erased is the
cells of the ships found so far. -/
structure Scanned (f : GameField) (i j : Nat) (s : ScanState) : Prop where
  erased : ∀ y x : Fin fldSz, y.val < i ∨ (y.val = i ∧ x.val < j) → s.tmp.field y x = 0
  total : s.tmp.count 0 = f.count 0 + fleetCells s.shipArr

theorem Scanned.found {f : GameField} {i j : Nat} {s : ScanState} (scanned : Scanned f i j s)
    (row : i < fldSz) (column : j < fldSz) (taken : readAt past s.tmp i j ≠ 0)
    {ship : Ship} {j' : Nat} (found : scanShip past s.tmp i j = some (ship, j')) :
    Scanned f i (j' + 1) ⟨removeShip ship s.tmp, s.shipArr ++ [ship]⟩ := by
  obtain ⟨known, low, high, cells, covered⟩ :=
    scanShip_spec past s.tmp row column taken found
  have removed : removeShip ship s.tmp = ship.cells.foldl
      (fun f tmp => if contains tmp then f.put tmp CellState.empty.toCell else f) s.tmp := by
    simp [removeShip, known]
  constructor
  · intro y x before
    have value := erase_cells ship.cells s.tmp (fun cell member => (cells cell member).1)
      ⟨(x.val : Int), (y.val : Int)⟩
    rw [at'_cell, at'_cell] at value
    rw [removed, value]
    split_ifs with member
    · rfl
    · apply scanned.erased y x
      rcases before with earlier | ⟨same, before⟩
      · exact Or.inl earlier
      · refine Or.inr ⟨same, ?_⟩
        by_contra notBefore
        have := covered x.val (by omega) (by omega)
        rw [← same] at this
        exact member this
  · have erased := count_erase_cells ship.cells s.tmp (Ship.cells_nodup known) cells
    simp only [removed, erased, scanned.total, fleetCells, Ship.cells_length, List.map_append,
      List.map_cons, List.map_nil, List.sum_append, List.sum_cons, List.sum_nil]
    omega

theorem Scanned.cell {f : GameField} {i j : Nat} {s : ScanState} (scanned : Scanned f i j s)
    (row : i < fldSz) (column : j < fldSz) :
    Comes True (fun next => j < next.1 ∧ Scanned f i next.1 next.2) (scanCell past i j s) := by
  unfold scanCell
  by_cases empty : readAt past s.tmp i j = CellState.empty.toCell
  · rw [if_pos empty]
    refine ⟨Nat.lt_succ_self j, fun y x before => ?_, scanned.total⟩
    by_cases here : y.val = i ∧ x.val = j
    · have value : readAt past s.tmp i j = 0 := empty
      rw [readAt_inside past s.tmp row column, ← here.1, ← here.2, at'_cell] at value
      exact value
    · exact scanned.erased y x (by omega)
  · rw [if_neg empty]
    cases found : scanShip past s.tmp i j with
    | none => trivial
    | some result =>
        obtain ⟨ship, j'⟩ := result
        have low := (scanShip_spec past s.tmp row column empty found).2.1
        by_cases excess : s.shipArr.length = maxShipCount
        · simp [excess, Comes]
        · simp only [Option.bind_some, excess, ↓reduceIte]
          exact ⟨Nat.lt_succ_of_le low, scanned.found past row column empty found⟩

theorem Scanned.wrap {f : GameField} {i j : Nat} {s : ScanState} (scanned : Scanned f i j s)
    (done : fldSz ≤ j) : Scanned f (i + 1) 0 s := by
  refine ⟨fun y x before => scanned.erased y x ?_, scanned.total⟩
  have := x.isLt
  omega

theorem scanned_start (f : GameField) : Scanned f 0 0 ⟨f, []⟩ := ⟨fun y x before => by omega, rfl⟩

end Scan

theorem fleetCells_rightFleet {shipArr : List Ship} (right : rightFleet shipArr = true) :
    fleetCells shipArr = 18 := by
  have byType (ships : List Ship) : fleetCells ships =
      ships.countP (fun ship => ship.type = .submarine) +
      2 * ships.countP (fun ship => ship.type = .destroyer) +
      3 * ships.countP (fun ship => ship.type = .cruiser) +
      4 * ships.countP (fun ship => ship.type = .battleship) +
      5 * ships.countP (fun ship => ship.type = .aircraftCarrier) := by
    induction ships with
    | nil => rfl
    | cons ship rest ih =>
        simp only [fleetCells, List.map_cons, List.sum_cons, List.countP_cons] at ih ⊢
        rw [ih]
        cases type : ship.type <;> simp [Ship.getLength, shipLength, type] <;> omega
  simp only [rightFleet, Bool.and_eq_true, List.all_cons, List.all_nil,
    decide_eq_true_eq] at right
  simp only [shipCount] at right
  rw [byType]
  omega

theorem count_all_erased {tmp : GameField} (erased : ∀ y x, tmp.field y x = 0) :
    tmp.count 0 = 100 := by
  simp [count, erased, fldSz]

theorem count_start_cells {f : GameField} (cells : ∀ y x, f.field y x = 0 ∨ f.field y x = 1) :
    f.count 0 + f.count 1 = 100 := by
  have split : f.count 1 = (Finset.univ.filter fun at' : Fin fldSz × Fin fldSz =>
      ¬ f.field at'.1 at'.2 = 0).card := by
    unfold count
    congr 1
    ext ⟨y, x⟩
    rcases cells y x with cell | cell <;> simp [cell]
  rw [split, count, Finset.card_filter_add_card_filter_not]
  simp [fldSz]

/-- An accepted start field has exactly eighteen whole ship cells. -/
theorem count_validStartField {f : GameField} (valid : f.isValidStartField = true) :
    f.count 1 = 18 := by
  have cells := count_start_cells (isValidStartField_cells valid)
  simp only [isValidStartField, isValidStartFieldWith, isValidField, Bool.and_eq_true] at valid
  obtain ⟨⟨_, _, fleet⟩, _⟩ := valid
  cases scan : scanRows (fun _ _ => 0) fldSz 0 ⟨f, []⟩ with
  | none => simp [scan] at fleet
  | some s =>
      simp only [scan, Bool.and_eq_true] at fleet
      have scanned : Comes True (Scanned f fldSz 0)
          (scanRows (fun _ _ => 0) fldSz 0 ⟨f, []⟩) :=
        scanRows_rule (Scanned f) (fun i j s row column inv => inv.cell _ row column)
          (fun i j s done inv => inv.wrap done) fldSz 0 rfl (scanned_start f)
      rw [scan] at scanned
      have erased := count_all_erased fun y x => scanned.erased y x (Or.inl y.isLt)
      have lengths := fleetCells_rightFleet fleet.1.2
      have total := scanned.total
      omega

end GameField
end Battleship
