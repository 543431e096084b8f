import Battleship.Const

/-! Points and ships (core/point.cpp, core/ship.cpp). Coordinates are `Int`: the
code computes them in `int`, and no caller leaves its range. -/
namespace Battleship

structure Point where
  x : Int
  y : Int
  deriving DecidableEq, Repr

instance : Add Point := ⟨fun a b => ⟨a.x + b.x, a.y + b.y⟩⟩

@[simp] theorem Point.add_x (a b : Point) : (a + b).x = a.x + b.x := rfl
@[simp] theorem Point.add_y (a b : Point) : (a + b).y = a.y + b.y := rfl

@[ext] theorem Point.ext' {a b : Point} (x : a.x = b.x) (y : a.y = b.y) : a = b := by
  cases a; cases b; simp_all

inductive ShipType where
  | submarine
  | destroyer
  | cruiser
  | battleship
  | aircraftCarrier
  | invalid
  deriving DecidableEq, Repr

def shipLength : ShipType → Nat
  | .submarine => 1
  | .destroyer => 2
  | .cruiser => 3
  | .battleship => 4
  | .aircraftCarrier => 5
  | .invalid => 0

def shipCount : ShipType → Nat
  | .submarine => 2
  | .destroyer => 2
  | .cruiser => 1
  | .battleship => 1
  | .aircraftCarrier => 1
  | .invalid => 0

def shipType (len : Int) : ShipType :=
  if len = 1 then .submarine
  else if len = 2 then .destroyer
  else if len = 3 then .cruiser
  else if len = 4 then .battleship
  else if len = 5 then .aircraftCarrier
  else .invalid

structure Ship where
  type : ShipType
  head : Point
  tail : Point
  deriving DecidableEq, Repr

/-- The constructor `Ship(p_head, p_tail)`. The length is signed and off by one
when the ends are given backwards, so the swap is taken from distance two on. -/
def Ship.ofEnds (head tail : Point) : Ship :=
  if head = tail then ⟨.submarine, head, tail⟩
  else if head.x = tail.x then
    let len := tail.y - head.y + 1
    if len < 0 then ⟨shipType (len * -1), tail, head⟩ else ⟨shipType len, head, tail⟩
  else if head.y = tail.y then
    let len := tail.x - head.x + 1
    if len < 0 then ⟨shipType (len * -1), tail, head⟩ else ⟨shipType len, head, tail⟩
  else ⟨.invalid, head, tail⟩

def Ship.getLength (ship : Ship) : Nat := shipLength ship.type

def Ship.isVertical (ship : Ship) : Bool :=
  if ship.type = .invalid then false else decide (ship.head.x = ship.tail.x)

def Ship.getDelta (ship : Ship) : Point :=
  if ship.type = .invalid then ⟨0, 0⟩ else if ship.isVertical then ⟨0, 1⟩ else ⟨1, 0⟩

/-- The points `tmp` runs through in `for(i < len) { ..; tmp += delta; }`. -/
def cellsFrom (delta : Point) : Nat → Point → List Point
  | 0, _ => []
  | len + 1, tmp => tmp :: cellsFrom delta len (tmp + delta)

def Ship.cells (ship : Ship) : List Point :=
  cellsFrom ship.getDelta ship.getLength ship.head

def Ship.contains (ship : Ship) (point : Point) : Bool :=
  if ship.type = .invalid then false else decide (point ∈ ship.cells)

@[simp] theorem cellsFrom_length (delta : Point) (len : Nat) (start : Point) :
    (cellsFrom delta len start).length = len := by
  induction len generalizing start with
  | zero => rfl
  | succ len ih => simp [cellsFrom, ih]

@[simp] theorem Ship.cells_length (ship : Ship) : ship.cells.length = ship.getLength :=
  cellsFrom_length _ _ _

theorem mem_cellsFrom (delta : Point) (len : Nat) (start point : Point) :
    point ∈ cellsFrom delta len start ↔
      ∃ k : Nat, k < len ∧ point.x = start.x + k * delta.x ∧ point.y = start.y + k * delta.y := by
  induction len generalizing start with
  | zero => simp [cellsFrom]
  | succ len ih =>
      simp only [cellsFrom, List.mem_cons, ih, Point.add_x, Point.add_y]
      constructor
      · rintro (rfl | ⟨k, inside, atX, atY⟩)
        · exact ⟨0, by omega, by simp, by simp⟩
        · refine ⟨k + 1, by omega, ?_, ?_⟩
          · push_cast; rw [atX, Int.add_mul]; omega
          · push_cast; rw [atY, Int.add_mul]; omega
      · rintro ⟨k, inside, atX, atY⟩
        cases k with
        | zero => exact Or.inl (Point.ext' (by simpa using atX) (by simpa using atY))
        | succ k =>
            refine Or.inr ⟨k, by omega, ?_, ?_⟩
            · push_cast at atX; rw [Int.add_mul] at atX; omega
            · push_cast at atY; rw [Int.add_mul] at atY; omega

theorem shipLength_shipType {len : Nat} (known : shipType len ≠ .invalid) :
    shipLength (shipType len) = len := by
  unfold shipType at known ⊢
  split_ifs at known ⊢ <;> simp_all [shipLength] <;> omega

end Battleship
