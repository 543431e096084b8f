import Battleship.Ship

/-! The game field of core/game_field.cpp: ten rows of ten `char` cells, the
shots that are fired at it and the check a start field has to pass. -/
namespace Battleship

/-- A plain `char`, which is signed on the platforms the game is built for. -/
abbrev Cell := Int8

abbrev fldSz : Nat := 10
def maxShipCount : Nat := 7

inductive CellState where
  | empty
  | unharmed
  | damaged
  | missed
  deriving DecidableEq, Repr

def CellState.toCell : CellState → Cell
  | .empty => 0
  | .unharmed => 1
  | .damaged => 2
  | .missed => 3

/-- `field[y][x]`, rows first. -/
structure GameField where
  field : Fin fldSz → Fin fldSz → Cell

def Inside (point : Point) : Prop :=
  0 ≤ point.x ∧ point.x < fldSz ∧ 0 ≤ point.y ∧ point.y < fldSz

instance (point : Point) : Decidable (Inside point) :=
  inferInstanceAs (Decidable (0 ≤ point.x ∧ point.x < fldSz ∧ 0 ≤ point.y ∧ point.y < fldSz))

namespace GameField

@[ext] theorem ext {f g : GameField} (same : ∀ y x, f.field y x = g.field y x) : f = g := by
  cases f; cases g
  exact congrArg GameField.mk (funext fun y => funext fun x => same y x)

instance : DecidableEq GameField := fun f g =>
  decidable_of_iff (∀ y x, f.field y x = g.field y x)
    ⟨fun same => ext same, fun same _ _ => same ▸ rfl⟩

/-- The constructor: every cell empty. -/
def new : GameField := ⟨fun _ _ => CellState.empty.toCell⟩

def contains (point : Point) : Bool := decide (Inside point)

/-- `field[point.y][point.x]` of a point inside the field. -/
def at' (f : GameField) (point : Point) : Cell :=
  if inside : Inside point then
    f.field ⟨point.y.toNat, by have := inside; unfold Inside at this; omega⟩
      ⟨point.x.toNat, by have := inside; unfold Inside at this; omega⟩
  else CellState.empty.toCell

def put (f : GameField) (point : Point) (cell : Cell) : GameField :=
  ⟨fun y x => if (y.val : Int) = point.y ∧ (x.val : Int) = point.x then cell else f.field y x⟩

/-- A value that is no state of a cell reads as an empty one. -/
def getState (f : GameField) (point : Point) : CellState :=
  if !contains point then .empty
  else if f.at' point = CellState.unharmed.toCell then .unharmed
  else if f.at' point = CellState.damaged.toCell then .damaged
  else if f.at' point = CellState.missed.toCell then .missed
  else .empty

def setPoint (f : GameField) (pos : Point) (state : CellState) : GameField :=
  if !contains pos then f else f.put pos state.toCell

def getForEnemy (f : GameField) : GameField :=
  ⟨fun y x => if f.field y x = CellState.unharmed.toCell then CellState.empty.toCell
    else f.field y x⟩

def dirs : List Point := [⟨1, 0⟩, ⟨-1, 0⟩, ⟨0, 1⟩, ⟨0, -1⟩]

def around : List Point :=
  [⟨1, 0⟩, ⟨1, 1⟩, ⟨1, -1⟩, ⟨-1, 0⟩, ⟨-1, 1⟩, ⟨-1, -1⟩, ⟨0, 1⟩, ⟨0, -1⟩]

/-- The `do .. while` of `_ship_destroyed` along one direction: the state of the
last cell looked at. A walk of `fldSz` steps has left the field. -/
def walkEnd (f : GameField) (dir : Point) : Nat → Point → CellState → CellState
  | 0, _, posState => posState
  | fuel + 1, curPos, posState =>
      if !contains (curPos + dir) then posState
      else
        let next := f.getState (curPos + dir)
        if next = .damaged then walkEnd f dir fuel (curPos + dir) next else next

def shipDestroyed (f : GameField) (point : Point) : Bool :=
  if f.getState point ≠ .damaged then false
  else dirs.all fun dir => decide (f.walkEnd dir fldSz point (f.getState point) ≠ .unharmed)

def markAround (f : GameField) (curPos : Point) : GameField :=
  around.foldl (fun f delta =>
    if !contains (curPos + delta) then f
    else if f.getState (curPos + delta) = .empty then f.setPoint (curPos + delta) .missed
    else f) f

/-- `while(get_state(cur_pos) == CELL_DAMAGED)`: the state outside the field is
empty, so the walk stops there at the latest. -/
def markLine (dir : Point) : Nat → GameField → Point → GameField
  | 0, f, _ => f
  | fuel + 1, f, curPos =>
      if f.getState curPos = .damaged then markLine dir fuel (f.markAround curPos) (curPos + dir)
      else f

/-- The first direction starts on the ship's cell itself, the other three one
cell beside it. The last turn of the loop also computes `cur_pos += dirs[4]`,
one past the table; nothing uses that point. -/
def markDestroyedShipBoundary (f : GameField) (point : Point) : GameField :=
  if f.getState point ≠ .damaged then f
  else
    let line (start : Point) (f : GameField) (dir : Point) : GameField :=
      if !contains start || decide (f.getState start ≠ .damaged) then f
      else markLine dir (fldSz + 1) f start
    let f := line point f ⟨1, 0⟩
    let f := line (point + ⟨-1, 0⟩) f ⟨-1, 0⟩
    let f := line (point + ⟨0, 1⟩) f ⟨0, 1⟩
    line (point + ⟨0, -1⟩) f ⟨0, -1⟩

def shotResult : CellState → CellState
  | .empty => .missed
  | .unharmed => .damaged
  | .damaged => .empty
  | .missed => .empty

def registerShot (f : GameField) (point : Point) : CellState × GameField :=
  if !contains point then (.empty, f)
  else
    let curState := f.getState point
    let ret := shotResult curState
    let f := if ret ≠ .empty ∧ ret ≠ curState then f.put point ret.toCell else f
    -- The cell is set before the ship is looked at.
    let f :=
      if ret = .damaged ∧ f.shipDestroyed point then f.markDestroyedShipBoundary point else f
    (ret, f)

def isEmpty (f : GameField) : Bool :=
  decide (∀ y x, f.field y x = CellState.empty.toCell)

def allShipsDestroyed (f : GameField) : Bool :=
  decide (∀ y x, f.field y x ≠ CellState.unharmed.toCell)

def isCellValuesValid (f : GameField) : Bool :=
  decide (∀ y x, ¬ (f.field y x < CellState.empty.toCell ∨ f.field y x > CellState.missed.toCell))

/-! The scan of `_is_valid_field`. It reads the working copy `tmp` with plain
subscripts and tests the bound after the cell, so it may read one cell past a
row or a column; `past` is whatever lies there. -/
section Scan
variable (past : Nat → Nat → Cell)

def readAt (tmp : GameField) (i j : Nat) : Cell :=
  if inside : i < fldSz ∧ j < fldSz then tmp.field ⟨i, inside.1⟩ ⟨j, inside.2⟩ else past i j

/-- `while(tmp[i][j] != CELL_EMPTY && j < FLD_SZ) ++j;` -/
def rowEnd (tmp : GameField) (i : Nat) : Nat → Nat → Nat
  | 0, j => j
  | fuel + 1, j =>
      if readAt past tmp i j ≠ CellState.empty.toCell ∧ j < fldSz then rowEnd tmp i fuel (j + 1)
      else j

/-- `while(tmp[tmp_i][j] != CELL_EMPTY && tmp_i < FLD_SZ) ++tmp_i;` -/
def columnEnd (tmp : GameField) (j : Nat) : Nat → Nat → Nat
  | 0, i => i
  | fuel + 1, i =>
      if readAt past tmp i j ≠ CellState.empty.toCell ∧ i < fldSz then columnEnd tmp j fuel (i + 1)
      else i

/-- The ship that starts at the non-empty cell `tmp[i][j]` and the column the
scan goes on from; `none` is the `return false` of an invalid ship. -/
def scanShip (tmp : GameField) (i j : Nat) : Option (Ship × Nat) :=
  let head : Point := ⟨j, i⟩
  let j' := rowEnd past tmp i fldSz j - 1
  let ship := Ship.ofEnds head ⟨j', i⟩
  if ship.type = .invalid then none
  -- One cell in its row: the scan goes down the column.
  else if ship.type ≠ .submarine then some (ship, j')
  else
    let i' := columnEnd past tmp j' fldSz i - 1
    if i' ≠ i then
      let ship := Ship.ofEnds head ⟨j', i'⟩
      if ship.type = .invalid then none else some (ship, j')
    else some (ship, j')

def removeShip (ship : Ship) (f : GameField) : GameField :=
  if ship.type = .invalid then f
  else ship.cells.foldl (fun f tmp => if contains tmp then f.put tmp CellState.empty.toCell else f) f

structure ScanState where
  tmp : GameField
  shipArr : List Ship

def scanRow (i : Nat) : Nat → Nat → ScanState → Option ScanState
  | 0, _, s => some s
  | fuel + 1, j, s =>
      if j < fldSz then
        if readAt past s.tmp i j = CellState.empty.toCell then scanRow i fuel (j + 1) s
        else
          match scanShip past s.tmp i j with
          | none => none
          | some (ship, j') =>
              -- Found excess ship.
              if s.shipArr.length = maxShipCount then none
              else scanRow i fuel (j' + 1) ⟨removeShip ship s.tmp, s.shipArr ++ [ship]⟩
      else some s

def scanRows : Nat → Nat → ScanState → Option ScanState
  | 0, _, s => some s
  | rows + 1, i, s => (scanRow past i fldSz 0 s).bind (scanRows rows (i + 1))

end Scan

def rightFleet (shipArr : List Ship) : Bool :=
  shipArr.all (fun ship => decide (ship.type ≠ .invalid)) &&
    [ShipType.submarine, .destroyer, .cruiser, .battleship, .aircraftCarrier].all fun type =>
      decide (shipArr.countP (fun ship => ship.type = type) = shipCount type)

def nbrEmpty (f : GameField) (nbr : Point) : Bool :=
  !contains nbr || decide (f.at' nbr = CellState.empty.toCell)

/-- The neighbour checks of one ship: beyond the head, beyond the tail and on
both flanks of every cell. -/
def shipApart (f : GameField) (ship : Ship) : Bool :=
  let headDelta : List Point :=
    if ship.isVertical then [⟨-1, -1⟩, ⟨0, -1⟩, ⟨1, -1⟩] else [⟨-1, -1⟩, ⟨-1, 0⟩, ⟨-1, 1⟩]
  let tailDelta : List Point :=
    if ship.isVertical then [⟨-1, 1⟩, ⟨0, 1⟩, ⟨1, 1⟩] else [⟨1, -1⟩, ⟨1, 0⟩, ⟨1, 1⟩]
  let flankDelta : List Point :=
    if ship.isVertical then [⟨-1, 0⟩, ⟨1, 0⟩] else [⟨0, -1⟩, ⟨0, 1⟩]
  ship.cells.all fun tmp =>
    (!decide (tmp = ship.head) || headDelta.all fun d => f.nbrEmpty (tmp + d)) &&
      (!decide (tmp = ship.tail) || tailDelta.all fun d => f.nbrEmpty (tmp + d)) &&
      flankDelta.all fun d => f.nbrEmpty (tmp + d)

def isValidField (past : Nat → Nat → Cell) (f : GameField) : Bool :=
  f.isCellValuesValid &&
    match scanRows past fldSz 0 ⟨f, []⟩ with
    | none => false
    | some s =>
        decide (s.shipArr.length = maxShipCount) && rightFleet s.shipArr &&
          s.shipArr.all f.shipApart

def isValidStartFieldWith (past : Nat → Nat → Cell) (f : GameField) : Bool :=
  !f.isEmpty && f.isValidField past &&
    decide (∀ y x, f.field y x = CellState.empty.toCell ∨ f.field y x = CellState.unharmed.toCell)

/-- The check with zeroes past the rows and columns: the scan tests the bound
next, so what lies there does not show. -/
def isValidStartField (f : GameField) : Bool := f.isValidStartFieldWith fun _ _ => 0

end GameField

def openingField : GameField where
  field y x :=
    if y.val = 0 ∧ x.val ≠ 5 ∨ y.val = 2 ∧ x.val ∉ [3, 6, 9] ∨ y.val = 4 ∧ x.val ∈ [0, 2]
    then 1 else 0

example : openingField.isValidStartField = true := by decide +kernel

end Battleship
