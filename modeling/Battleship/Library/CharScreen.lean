import Mathlib.Data.Int.Notation
import Mathlib.Tactic

/-! A screen of characters with a cursor, as terminal libraries have it: what is written
appears at the cursor, which then goes on to the right and at the end of a row to the next
one. This holds of printable characters; what a control character does is not modelled. -/
namespace CharScreen

structure Screen where
  width : Nat
  height : Nat
  /-- By row and column. -/
  cells : Int → Int → Char
  row : Int
  col : Int

def Screen.Within (s : Screen) (y x : Int) : Prop := 0 ≤ y ∧ y < s.height ∧ 0 ≤ x ∧ x < s.width

instance (s : Screen) (y x : Int) : Decidable (s.Within y x) :=
  inferInstanceAs (Decidable (_ ∧ _ ∧ _ ∧ _))

/-- Outside of the screen the cursor is not moved. -/
def move (s : Screen) (y x : Int) : Screen := if s.Within y x then { s with row := y, col := x } else s

/-- In the last column of the last row the cursor stays. -/
def addch (s : Screen) (ch : Char) : Screen :=
  let cells := fun y x => if y = s.row ∧ x = s.col then ch else s.cells y x
  if s.col + 1 < s.width then { s with cells := cells, col := s.col + 1 }
  else if s.row + 1 < s.height then { s with cells := cells, row := s.row + 1, col := 0 }
  else { s with cells := cells }

/-- It does not stop in the last column of the last row, as such libraries may. -/
def addstr (s : Screen) (text : List Char) : Screen := text.foldl addch s

def mvaddch (s : Screen) (y x : Int) (ch : Char) : Screen :=
  if s.Within y x then addch (move s y x) ch else s

section Cells

variable {s : Screen}

/-- The area of the screen is the same. -/
def Screen.SameSize (s s' : Screen) : Prop := s'.width = s.width ∧ s'.height = s.height

theorem Screen.SameSize.refl (s : Screen) : s.SameSize s := ⟨rfl, rfl⟩

theorem Screen.SameSize.trans {s' s'' : Screen} (first : s.SameSize s') (next : s'.SameSize s'') :
    s.SameSize s'' := ⟨next.1.trans first.1, next.2.trans first.2⟩

theorem Screen.SameSize.within {s' : Screen} (same : s.SameSize s') {y x : Int} :
    s'.Within y x ↔ s.Within y x := by
  rw [Screen.Within, Screen.Within, same.1, same.2]

theorem move_size (s : Screen) (y x : Int) : s.SameSize (move s y x) := by
  unfold move
  split_ifs <;> exact ⟨rfl, rfl⟩

@[simp] theorem move_cells (s : Screen) (y x : Int) : (move s y x).cells = s.cells := by
  unfold move
  split_ifs <;> rfl

theorem move_to {y x : Int} (within : s.Within y x) : (move s y x).row = y ∧ (move s y x).col = x := by
  rw [move, if_pos within]
  exact ⟨rfl, rfl⟩

theorem addch_size (s : Screen) (ch : Char) : s.SameSize (addch s ch) := by
  unfold addch
  dsimp only
  split_ifs <;> exact ⟨rfl, rfl⟩

theorem addch_cells (s : Screen) (ch : Char) (y x : Int) :
    (addch s ch).cells y x = if y = s.row ∧ x = s.col then ch else s.cells y x := by
  by_cases right : s.col + 1 < s.width
  · simp only [addch, if_pos right]
  · by_cases below : s.row + 1 < s.height
    · simp only [addch, if_neg right, if_pos below]
    · simp only [addch, if_neg right, if_neg below]

theorem mvaddch_size (s : Screen) (y x : Int) (ch : Char) : s.SameSize (mvaddch s y x ch) := by
  unfold mvaddch
  split_ifs
  · exact (move_size s y x).trans (addch_size _ ch)
  · exact .refl s

theorem mvaddch_cells {y x : Int} (within : s.Within y x) (ch : Char) (y' x' : Int) :
    (mvaddch s y x ch).cells y' x' = if y' = y ∧ x' = x then ch else s.cells y' x' := by
  obtain ⟨row, col⟩ := move_to within
  rw [mvaddch, if_pos within, addch_cells, row, col, move_cells]

theorem addstr_cells (text : List Char) (room : s.col + text.length < s.width) :
    s.SameSize (addstr s text) ∧ ∀ y x, (addstr s text).cells y x =
      if y = s.row ∧ s.col ≤ x ∧ x < s.col + text.length then text.getD (x - s.col).toNat ' '
      else s.cells y x := by
  induction text generalizing s with
  | nil =>
      refine ⟨.refl s, fun y x => ?_⟩
      rw [if_neg (by simp only [List.length_nil]; omega)]
      rfl
  | cons ch text ih =>
      simp only [List.length_cons, Nat.cast_add, Nat.cast_one] at room ⊢
      have next : (addch s ch).row = s.row ∧ (addch s ch).col = s.col + 1 := by
        rw [addch, if_pos (by omega)]
        exact ⟨rfl, rfl⟩
      have size := addch_size s ch
      obtain ⟨size', cells⟩ := ih (s := addch s ch) (by rw [next.2, size.1]; omega)
      refine ⟨size.trans size', fun y x => ?_⟩
      change (addstr (addch s ch) text).cells y x = _
      rw [cells, addch_cells, next.1, next.2]
      by_cases here : y = s.row ∧ x = s.col
      · obtain ⟨rfl, rfl⟩ := here
        rw [if_neg (by omega), if_pos ⟨rfl, rfl⟩, if_pos (by omega), Int.sub_self]
        rfl
      · rw [if_neg here]
        by_cases later : y = s.row ∧ s.col + 1 ≤ x ∧ x < s.col + 1 + text.length
        · rw [if_pos later, if_pos (by omega)]
          have index : (x - s.col).toNat = (x - (s.col + 1)).toNat + 1 := by omega
          rw [index]
          rfl
        · rw [if_neg later, if_neg (by omega)]

end Cells

/-- The characters of `image`, by row and column, in a box at `(top, left)`. -/
def drawBox (s : Screen) (top left : Int) (height width : Nat) (image : Nat → Nat → Char) : Screen :=
  (List.range height).foldl (fun s (i : Nat) =>
    (List.range width).foldl (fun s (j : Nat) => mvaddch s (top + i) (left + j) (image i j)) s) s

variable {s : Screen} {top left : Int} {height width : Nat} (image : Nat → Nat → Char)

theorem drawRow_cells (i : Nat) (fits : ∀ j < width, s.Within (top + i) (left + j)) :
    let s' := (List.range width).foldl
      (fun s (j : Nat) => mvaddch s (top + i) (left + j) (image i j)) s
    s.SameSize s' ∧ ∀ y x, s'.cells y x =
      if y = top + i ∧ left ≤ x ∧ x < left + width then image i (x - left).toNat
      else s.cells y x := by
  induction width with
  | zero =>
      refine ⟨.refl s, fun y x => ?_⟩
      rw [if_neg (by omega)]
      rfl
  | succ width ih =>
      obtain ⟨size, cells⟩ := ih fun j small => fits j (Nat.lt_succ_of_lt small)
      simp only [List.range_succ, List.foldl_append, List.foldl_cons, List.foldl_nil]
      refine ⟨size.trans (mvaddch_size ..), fun y x => ?_⟩
      rw [mvaddch_cells (size.within.mpr (fits width (Nat.lt_succ_self width))), cells]
      by_cases here : y = top + i ∧ x = left + width
      · obtain ⟨rfl, rfl⟩ := here
        rw [if_pos ⟨rfl, rfl⟩, if_pos (by omega)]
        congr 1
        omega
      · rw [if_neg here]
        refine if_congr ?_ rfl rfl
        omega

theorem drawBox_cells (fits : ∀ i < height, ∀ j < width, s.Within (top + i) (left + j)) :
    s.SameSize (drawBox s top left height width image) ∧
      ∀ y x, (drawBox s top left height width image).cells y x =
        if top ≤ y ∧ y < top + height ∧ left ≤ x ∧ x < left + width then
          image (y - top).toNat (x - left).toNat
        else s.cells y x := by
  unfold drawBox
  induction height with
  | zero =>
      refine ⟨.refl s, fun y x => ?_⟩
      rw [if_neg (by omega)]
      rfl
  | succ height ih =>
      obtain ⟨size, cells⟩ := ih fun i small => fits i (Nat.lt_succ_of_lt small)
      simp only [List.range_succ, List.foldl_append, List.foldl_cons, List.foldl_nil]
      obtain ⟨size', row⟩ := drawRow_cells image height fun j small =>
        size.within.mpr (fits height (Nat.lt_succ_self height) j small)
      refine ⟨size.trans size', fun y x => ?_⟩
      rw [row, cells]
      by_cases here : y = top + height ∧ left ≤ x ∧ x < left + width
      · obtain ⟨rfl, low, high⟩ := here
        rw [if_pos ⟨rfl, low, high⟩, if_pos (by omega)]
        congr 1
        omega
      · rw [if_neg here]
        refine if_congr ?_ rfl rfl
        omega

end CharScreen
