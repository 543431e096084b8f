import Battleship.FieldFleet

/-! Legal fleets as they are meant, apart from how they are searched for: seven
straight segments of the right lengths inside the field that neither share cells
nor touch, not even by a corner. -/
namespace Battleship

def Near (a b : Point) : Prop := (a.x - b.x).natAbs ≤ 1 ∧ (a.y - b.y).natAbs ≤ 1

instance (a b : Point) : Decidable (Near a b) :=
  inferInstanceAs (Decidable ((a.x - b.x).natAbs ≤ 1 ∧ (a.y - b.y).natAbs ≤ 1))

theorem Near.symm {a b : Point} (near : Near a b) : Near b a := by
  unfold Near at *
  omega

structure Segment where
  start : Point
  len : Nat
  vertical : Bool
  deriving DecidableEq

namespace Segment

def delta (s : Segment) : Point := if s.vertical then ⟨0, 1⟩ else ⟨1, 0⟩

def cells (s : Segment) : List Point := cellsFrom s.delta s.len s.start

def Apart (s t : Segment) : Prop := ∀ a ∈ s.cells, ∀ b ∈ t.cells, ¬ Near a b

end Segment

/-- A legal fleet. -/
structure Fleet where
  segments : List Segment
  lengths : (segments.map Segment.len).Perm [1, 1, 2, 2, 3, 4, 5]
  inside : ∀ s ∈ segments, ∀ cell ∈ s.cells, Inside cell
  apart : segments.Pairwise Segment.Apart

/-- The fleet is what the field shows: its cells are whole ones and all others water. -/
structure Fleet.Fills (fleet : Fleet) (f : GameField) : Prop where
  values : ∀ y x, f.field y x = CellState.empty.toCell ∨ f.field y x = CellState.unharmed.toCell
  covers : ∀ point, Inside point →
    (f.at' point = CellState.unharmed.toCell ↔ ∃ s ∈ fleet.segments, point ∈ s.cells)

namespace Segment

theorem mem_vertical {start : Point} {len : Nat} {point : Point} :
    point ∈ cells ⟨start, len, true⟩ ↔
      point.x = start.x ∧ start.y ≤ point.y ∧ point.y < start.y + len := by
  simp only [cells, delta, mem_cellsFrom, ↓reduceIte]
  constructor
  · rintro ⟨k, inside, atX, atY⟩
    omega
  · rintro ⟨atX, low, high⟩
    exact ⟨(point.y - start.y).toNat, by omega, by omega, by omega⟩

theorem mem_horizontal {start : Point} {len : Nat} {point : Point} :
    point ∈ cells ⟨start, len, false⟩ ↔
      point.y = start.y ∧ start.x ≤ point.x ∧ point.x < start.x + len := by
  simp only [cells, delta, mem_cellsFrom, Bool.false_eq_true, ↓reduceIte]
  constructor
  · rintro ⟨k, inside, atX, atY⟩
    omega
  · rintro ⟨atY, low, high⟩
    exact ⟨(point.x - start.x).toNat, by omega, by omega, by omega⟩

def width (s : Segment) : Nat := if s.vertical then 1 else s.len
def height (s : Segment) : Nat := if s.vertical then s.len else 1

theorem mem_cells {s : Segment} {point : Point} :
    point ∈ s.cells ↔ (s.start.x ≤ point.x ∧ point.x < s.start.x + s.width) ∧
      s.start.y ≤ point.y ∧ point.y < s.start.y + s.height := by
  obtain ⟨start, len, vertical⟩ := s
  cases vertical
  · simp only [mem_horizontal, width, height, Bool.false_eq_true, ↓reduceIte]
    omega
  · simp only [mem_vertical, width, height, ↓reduceIte]
    omega

theorem start_mem {s : Segment} (long : 1 ≤ s.len) : s.start ∈ s.cells := by
  rw [mem_cells, width, height]
  split_ifs <;> omega

instance : Std.Symm Apart := ⟨fun _ _ apart a inT b inS near => apart b inS a inT near.symm⟩

/-- Two cells next to each other that are each in some segment are in the same one. -/
theorem eq_of_near {segments : List Segment} (apart : segments.Pairwise Apart) {s t : Segment}
    (inS : s ∈ segments) (inT : t ∈ segments) {a b : Point} (atA : a ∈ s.cells) (atB : b ∈ t.cells)
    (near : Near a b) : s = t := by
  by_contra different
  exact apart.forall inS inT different a atA b atB near

def Sized (s : Segment) : Prop := 1 ≤ s.len ∧ s.len ≤ 5

def last (s : Segment) : Point :=
  ⟨s.start.x + (s.len - 1) * s.delta.x, s.start.y + (s.len - 1) * s.delta.y⟩

def ship (s : Segment) : Ship := ⟨shipType s.len, s.start, s.last⟩

theorem shipType_known {len : Nat} : shipType len ≠ .invalid ↔ 1 ≤ len ∧ len ≤ 5 := by
  unfold shipType
  split_ifs <;> simp <;> omega

theorem ship_known {s : Segment} (sized : s.Sized) : s.ship.type ≠ .invalid :=
  shipType_known.mpr sized

theorem ship_length {s : Segment} (sized : s.Sized) : s.ship.getLength = s.len :=
  shipLength_shipType (ship_known sized)

theorem ship_isVertical {s : Segment} (sized : s.Sized) :
    s.ship.isVertical = true ↔ s.vertical = true ∨ s.len = 1 := by
  obtain ⟨start, len, vertical⟩ := s
  have long : 1 ≤ len := sized.1
  rw [Ship.isVertical, if_neg (ship_known sized), decide_eq_true_iff]
  cases vertical
  · simp [ship, last, delta]
    omega
  · simp [ship, last, delta]

theorem ship_delta {s : Segment} (sized : s.Sized) :
    s.ship.getDelta = if s.vertical = true ∨ s.len = 1 then ⟨0, 1⟩ else ⟨1, 0⟩ := by
  rw [Ship.getDelta, if_neg (ship_known sized)]
  simp only [ship_isVertical sized]

@[simp] theorem ship_cells {s : Segment} (sized : s.Sized) : s.ship.cells = s.cells := by
  rw [Ship.cells, ship_length sized, ship_delta sized, cells, delta]
  by_cases single : s.len = 1
  · rw [single]
    rfl
  · simp only [single, or_false]
    rfl

theorem ofEnds_horizontal (x y : Int) {len : Nat} (long : 1 ≤ len) :
    Ship.ofEnds ⟨x, y⟩ ⟨x + (len - 1), y⟩ = ship ⟨⟨x, y⟩, len, false⟩ := by
  rw [Ship.ofEnds_row y (by omega), show x + ((len : Int) - 1) - x + 1 = len by omega]
  simp [ship, last, delta]

theorem ofEnds_vertical (x y : Int) {len : Nat} (long : 1 ≤ len) :
    Ship.ofEnds ⟨x, y⟩ ⟨x, y + (len - 1)⟩ = ship ⟨⟨x, y⟩, len, true⟩ := by
  rw [Ship.ofEnds_column x (by omega), show y + ((len : Int) - 1) - y + 1 = len by omega]
  simp [ship, last, delta]

theorem ship_submarine {s : Segment} : s.ship.type = .submarine ↔ s.len = 1 := by
  unfold ship shipType
  split_ifs <;> simp <;> omega

theorem ship_single (start : Point) (vertical : Bool) :
    ship ⟨start, 1, vertical⟩ = ⟨.submarine, start, start⟩ := by
  simp [ship, last, shipType]

end Segment

namespace Fleet

theorem sized (fleet : Fleet) {seg : Segment} (member : seg ∈ fleet.segments) : seg.Sized := by
  have length := fleet.lengths.mem_iff.mp (List.mem_map_of_mem (f := Segment.len) member)
  simp only [List.mem_cons, List.not_mem_nil, or_false] at length
  unfold Segment.Sized
  omega

variable {fleet : Fleet} {f : GameField}

theorem Fills.whole (fills : fleet.Fills f) {seg : Segment} (member : seg ∈ fleet.segments)
    {cell : Point} (inSeg : cell ∈ seg.cells) : f.at' cell = CellState.unharmed.toCell :=
  (fills.covers cell (fleet.inside seg member cell inSeg)).mpr ⟨seg, member, inSeg⟩

theorem Fills.water (fills : fleet.Fills f) {point : Point} (inside : Inside point)
    (none : ∀ seg ∈ fleet.segments, point ∉ seg.cells) :
    f.at' point = CellState.empty.toCell := by
  have uncovered := (fills.covers point inside).not.mpr (by simpa using none)
  obtain ⟨y, x, rfl⟩ := GameField.inside_iff.mp inside
  rw [GameField.at'_cell] at uncovered ⊢
  exact (fills.values y x).resolve_right uncovered

end Fleet
end Battleship
