import Battleship.Ship
import Battleship.Library.Wraparound

/-! The cursor of client/ncurses/cursor.cpp, without the calls that show it on the
terminal: a position in a box, from whose edge it goes on at the opposite one. -/
namespace Battleship

open Wraparound

instance : Sub Point := ⟨fun a b => ⟨a.x - b.x, a.y - b.y⟩⟩

@[simp] theorem Point.sub_x (a b : Point) : (a - b).x = a.x - b.x := rfl
@[simp] theorem Point.sub_y (a b : Point) : (a - b).y = a.y - b.y := rfl

/-- `min` is the upper left corner; the column and the row of `max` lie outside. -/
structure Cursor where
  pos : Point
  min : Point
  max : Point
  deriving DecidableEq, Repr

namespace Cursor

def new : Cursor := ⟨⟨0, 0⟩, ⟨0, 0⟩, ⟨0, 0⟩⟩

def isValidBoundary (min max : Point) : Bool := !decide (max.x ≤ min.x ∨ max.y ≤ min.y)

def checkPos (c : Cursor) : Cursor :=
  let pos := c.pos
  let pos := if pos.x < c.min.x then { pos with x := c.max.x - 1 } else pos
  let pos := if pos.y < c.min.y then { pos with y := c.max.y - 1 } else pos
  let pos := if c.max.x ≤ pos.x then { pos with x := c.min.x } else pos
  let pos := if c.max.y ≤ pos.y then { pos with y := c.min.y } else pos
  { c with pos := pos }

def setPos (c : Cursor) (pos : Point) : Cursor := { c with pos := pos }.checkPos

def setRelatedPos (c : Cursor) (pos : Point) : Cursor := { c with pos := pos + c.min }.checkPos

def getRelatedPos (c : Cursor) : Point := c.pos - c.min

def move (c : Cursor) (offset : Point) : Cursor := { c with pos := c.pos + offset }.checkPos

def setBoundary (c : Cursor) (min max : Point) : Cursor :=
  if isValidBoundary min max then ⟨min, min, max⟩ else c

structure Placed (c : Cursor) : Prop where
  left : c.min.x ≤ c.pos.x
  right : c.pos.x < c.max.x
  top : c.min.y ≤ c.pos.y
  bottom : c.pos.y < c.max.y

variable {c : Cursor}

theorem checkPos_eq (c : Cursor) : c.checkPos =
    { c with pos := ⟨wrap c.min.x c.max.x c.pos.x, wrap c.min.y c.max.y c.pos.y⟩ } := by
  obtain ⟨⟨x, y⟩, min, max⟩ := c
  simp only [checkPos, wrap]
  split_ifs <;> rfl

@[simp] theorem checkPos_min (c : Cursor) : c.checkPos.min = c.min := by rw [checkPos_eq]
@[simp] theorem checkPos_max (c : Cursor) : c.checkPos.max = c.max := by rw [checkPos_eq]

theorem checkPos_placed (wide : c.min.x < c.max.x) (high : c.min.y < c.max.y) :
    c.checkPos.Placed := by
  rw [checkPos_eq]
  exact ⟨(wrap_within wide _).1, (wrap_within wide _).2, (wrap_within high _).1,
    (wrap_within high _).2⟩

theorem Placed.wide (placed : c.Placed) : c.min.x < c.max.x :=
  Int.lt_of_le_of_lt placed.left placed.right

theorem Placed.high (placed : c.Placed) : c.min.y < c.max.y :=
  Int.lt_of_le_of_lt placed.top placed.bottom

theorem setBoundary_placed {min max : Point} (wide : min.x < max.x) (high : min.y < max.y) :
    c.setBoundary min max = ⟨min, min, max⟩ ∧ (c.setBoundary min max).Placed := by
  have valid : isValidBoundary min max = true := by
    simp only [isValidBoundary, Bool.not_eq_true', decide_eq_false_iff_not]
    omega
  rw [setBoundary, if_pos valid]
  exact ⟨rfl, le_rfl, wide, le_rfl, high⟩

theorem setRelatedPos_placed (placed : c.Placed) (pos : Point) : (c.setRelatedPos pos).Placed :=
  checkPos_placed placed.wide placed.high

theorem setRelatedPos_inside {pos : Point} (left : 0 ≤ pos.x) (right : pos.x < c.max.x - c.min.x)
    (top : 0 ≤ pos.y) (bottom : pos.y < c.max.y - c.min.y) :
    (c.setRelatedPos pos).getRelatedPos = pos := by
  rw [setRelatedPos, checkPos_eq]
  apply Point.ext'
  · simp only [getRelatedPos, Point.sub_x, Point.add_x]
    rw [wrap_inside (by omega) (by omega)]
    omega
  · simp only [getRelatedPos, Point.sub_y, Point.add_y]
    rw [wrap_inside (by omega) (by omega)]
    omega

theorem move_placed (placed : c.Placed) (offset : Point) : (c.move offset).Placed :=
  checkPos_placed placed.wide placed.high

def moves (c : Cursor) (offsets : List Point) : Cursor := offsets.foldl move c

theorem moves_eq (c : Cursor) (offsets : List Point) : c.moves offsets =
    { c with pos := ⟨walk c.min.x c.max.x c.pos.x (offsets.map Point.x),
      walk c.min.y c.max.y c.pos.y (offsets.map Point.y)⟩ } := by
  induction offsets using List.reverseRecOn with
  | nil => rfl
  | append_singleton offsets offset ih =>
      have last : c.moves (offsets ++ [offset]) = (c.moves offsets).move offset := by
        simp only [moves, List.foldl_append, List.foldl_cons, List.foldl_nil]
      rw [last, ih, move, checkPos_eq]
      simp only [walk, List.map_append, List.map_cons, List.map_nil, List.foldl_append,
        List.foldl_cons, List.foldl_nil, Point.add_x, Point.add_y]

/-- Offsets of at most one cell add up, modulo the width and the height of the box. -/
theorem moves_related (placed : c.Placed) {offsets : List Point}
    (small : ∀ offset ∈ offsets,
      (-1 ≤ offset.x ∧ offset.x ≤ 1) ∧ (-1 ≤ offset.y ∧ offset.y ≤ 1)) :
    (c.moves offsets).getRelatedPos =
      ⟨(c.getRelatedPos.x + (offsets.map Point.x).sum) % (c.max.x - c.min.x),
        (c.getRelatedPos.y + (offsets.map Point.y).sum) % (c.max.y - c.min.y)⟩ := by
  rw [moves_eq]
  apply Point.ext'
  · simp only [getRelatedPos, Point.sub_x]
    rw [walk_eq placed.wide placed.left placed.right, add_sub_cancel_left]
    exact List.forall_mem_map.mpr fun offset member => (small offset member).1
  · simp only [getRelatedPos, Point.sub_y]
    rw [walk_eq placed.high placed.top placed.bottom, add_sub_cancel_left]
    exact List.forall_mem_map.mpr fun offset member => (small offset member).2

end Cursor
end Battleship
