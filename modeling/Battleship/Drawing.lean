import Battleship.NcursesInterface
import Battleship.Library.CharScreen
import Mathlib.Data.List.GetD

/-! What client/ncurses/ncurses_interface.cpp draws. The terminal is a screen of characters;
colours are left out. -/
namespace Battleship

open CharScreen

def CellState.char : CellState → Char
  | .empty => ' '
  | .unharmed => 'o'
  | .damaged => 'x'
  | .missed => '.'

def backgroundWidth : Nat := 25
def backgroundHeight : Nat := 21

abbrev Background := Nat → Nat → Char

/-- The loop of `_load` over the characters of the file, from position `k` of the image on. A line
break is skipped, one at a time; at the end of the file the answer is `none`. -/
def loadLoop : Nat → List Char → Option (List Char)
  | 0, _ => some []
  | _ + 1, [] => none
  | count + 1, ch :: file =>
      if ch = '\n' then
        match file with
        | [] => none
        | ch :: file => (loadLoop count file).map (ch :: ·)
      else (loadLoop count file).map (ch :: ·)

def load (file : List Char) : Option Background :=
  (loadLoop (backgroundHeight * backgroundWidth) file).map fun cells y x =>
    cells.getD (y * backgroundWidth + x) ' '

def twoDigits (n : Int) : List Char :=
  if 0 ≤ n ∧ n < 10 then '0' :: (toString n).toList else (toString n).toList

/-- The text that `snprintf` puts into a buffer of six. -/
def timerText (sec : Int64) : List Char :=
  let min := (sec / 60).toInt32
  let rest := sec - (min * 60).toInt64
  (twoDigits min.toInt ++ ':' :: twoDigits rest.toInt).take 5

namespace NcursesInterface

def serverStateY : Int := 19
def serverStateX : Int := 12
def gameStatusY : Int := 14
def gameStatusX : Int := 3
def gameStatusWidth : Nat := 20
def timerY : Int := 15
def timerX : Int := 3
def timerWidth : Nat := 20

def returnToPos (ui : NcursesInterface) (s : Screen) : Screen :=
  move s ui.cursor.pos.y ui.cursor.pos.x

def clear (s : Screen) (y x : Int) (width : Nat) : Screen :=
  addstr (move s y x) (List.replicate width ' ')

def drawBackground (background : Background) (s : Screen) : Screen :=
  drawBox s 0 0 backgroundHeight backgroundWidth background

def drawField (s : Screen) (start : Point) (field : GameField) : Screen :=
  drawBox s start.y start.x fieldSize fieldSize fun i j => (field.getState ⟨j, i⟩).char

def drawOwnField (ui : NcursesInterface) (s : Screen) : Screen :=
  ui.returnToPos (drawField s ownFieldStart ui.ownField)

def drawEnemyField (ui : NcursesInterface) (s : Screen) : Screen :=
  ui.returnToPos (drawField s enemyFieldStart ui.enemyField)

def stateText (state : UInt32) : List Char :=
  match GameState.ofCode state with
  | none => []
  | some .noVacantGame => "No game".toList
  | some .waitPlayer => "Wait opponent".toList
  | some .waitPreparation => "Wait preparation".toList
  | some .preparation => "Preparation".toList
  | some .waitStart => "Wait start".toList
  | some .gameTurn => "In game".toList
  | some .processTurn => "Process turn".toList
  | some .ownTurn => "Your turn".toList
  | some .enemyTurn => "Enemies turn".toList
  | some .winGame => "You win!".toList
  | some .loseGame => "You lose".toList

def drawGameState (ui : NcursesInterface) (s : Screen) : Screen :=
  ui.returnToPos (addstr (move (clear s gameStatusY gameStatusX gameStatusWidth)
    gameStatusY gameStatusX) (stateText ui.state))

def connText (connected : Bool) : List Char := if connected then "ON".toList else "OFF".toList

/-- `_clear_server_state` clears as many characters as a field is wide. -/
def drawServerConnState (ui : NcursesInterface) (s : Screen) : Screen :=
  ui.returnToPos (addstr (move (clear s serverStateY serverStateX fieldSize)
    serverStateY serverStateX) (connText ui.hasSeverConn))

def drawTimer (ui : NcursesInterface) (now : Int64) (s : Screen) : Screen :=
  if !ui.timer.isActive then s
  else if ui.timer.remain now = 0 then s
  else ui.returnToPos (addstr (move (clear s timerY timerX timerWidth) timerY timerX)
    (timerText (ui.timer.remain now)))

def showScreen (ui : NcursesInterface) (background : Background) (now : Int64) (s : Screen) : Screen :=
  ui.drawTimer now (ui.drawServerConnState (ui.drawGameState (ui.drawEnemyField
    (ui.drawOwnField (drawBackground background s)))))

/-- The screen is large enough for the background. -/
def Roomy (s : Screen) : Prop := backgroundWidth ≤ s.width ∧ backgroundHeight ≤ s.height

def lineChar (text : List Char) (k : Nat) : Char := text.getD k ' '

def picture (ui : NcursesInterface) (background : Background) (now : Int64) (y x : Int) : Char :=
  if (ui.timer.isActive ∧ ui.timer.remain now ≠ 0) ∧ y = timerY ∧ timerX ≤ x ∧ x < timerX + timerWidth
  then lineChar (timerText (ui.timer.remain now)) (x - timerX).toNat
  else if y = serverStateY ∧ serverStateX ≤ x ∧ x < serverStateX + fieldSize then
    lineChar (connText ui.hasSeverConn) (x - serverStateX).toNat
  else if y = gameStatusY ∧ gameStatusX ≤ x ∧ x < gameStatusX + gameStatusWidth then
    lineChar (stateText ui.state) (x - gameStatusX).toNat
  else if Inside (⟨x, y⟩ - enemyFieldStart) then
    (ui.enemyField.getState (⟨x, y⟩ - enemyFieldStart)).char
  else if Inside (⟨x, y⟩ - ownFieldStart) then (ui.ownField.getState (⟨x, y⟩ - ownFieldStart)).char
  else background y.toNat x.toNat

section Drawing

variable {s : Screen} {ui : NcursesInterface}

theorem Roomy.within (roomy : Roomy s) {y x : Int} (row : 0 ≤ y ∧ y < 21) (col : 0 ≤ x ∧ x < 25) :
    s.Within y x := by
  obtain ⟨wide, high⟩ := roomy
  unfold backgroundWidth at wide
  unfold backgroundHeight at high
  unfold Screen.Within
  omega

theorem Roomy.of_size (roomy : Roomy s) {s' : Screen} (size : s.SameSize s') : Roomy s' := by
  unfold Roomy
  rw [size.1, size.2]
  exact roomy

theorem returnToPos_draws (ui : NcursesInterface) (s : Screen) :
    s.SameSize (ui.returnToPos s) ∧ (ui.returnToPos s).cells = s.cells :=
  ⟨move_size .., move_cells ..⟩

theorem addstr_at (roomy : Roomy s) {y x : Int} (row : 0 ≤ y ∧ y < 21) (left : 0 ≤ x)
    (text : List Char) (right : x + text.length < 25) :
    s.SameSize (addstr (move s y x) text) ∧ ∀ y' x', (addstr (move s y x) text).cells y' x' =
      if y' = y ∧ x ≤ x' ∧ x' < x + text.length then text.getD (x' - x).toNat ' '
      else s.cells y' x' := by
  have within := roomy.within row ⟨left, by omega⟩
  obtain ⟨here, there⟩ := move_to within
  have size := move_size s y x
  have wide := roomy.1
  unfold backgroundWidth at wide
  obtain ⟨size', cells⟩ := addstr_cells text (s := move s y x) (by rw [there, size.1]; omega)
  refine ⟨size.trans size', fun y' x' => ?_⟩
  rw [cells, here, there, move_cells]

theorem line_draws (roomy : Roomy s) {y x : Int} (row : 0 ≤ y ∧ y < 21) (left : 0 ≤ x) {width : Nat}
    (right : x + width < 25) (text : List Char) (fits : text.length ≤ width) :
    let s' := addstr (move (clear s y x width) y x) text
    s.SameSize s' ∧ ∀ y' x', s'.cells y' x' =
      if y' = y ∧ x ≤ x' ∧ x' < x + width then lineChar text (x' - x).toNat
      else s.cells y' x' := by
  intro s'
  obtain ⟨size, cleared⟩ := addstr_at roomy row left (List.replicate width ' ')
    (by rw [List.length_replicate]; exact right)
  rw [List.length_replicate] at cleared
  obtain ⟨size', written⟩ := addstr_at (roomy.of_size size) row left text (by omega)
  refine ⟨size.trans size', fun y' x' => ?_⟩
  refine (written y' x').trans ?_
  by_cases text_ : y' = y ∧ x ≤ x' ∧ x' < x + text.length
  · rw [if_pos text_, if_pos (by omega)]
    rfl
  · rw [if_neg text_]
    refine (cleared y' x').trans ?_
    refine if_ctx_congr Iff.rfl (fun line => ?_) fun _ => rfl
    have behind : text.length ≤ (x' - x).toNat := by omega
    rw [lineChar, List.getD_eq_default _ _ behind, List.getD_eq_getElem?_getD,
      List.getElem?_replicate]
    split_ifs <;> rfl

theorem drawField_draws (roomy : Roomy s) (start : Point) (row : 0 ≤ start.y ∧ start.y ≤ 11)
    (col : 0 ≤ start.x ∧ start.x ≤ 15) (field : GameField) :
    s.SameSize (drawField s start field) ∧ ∀ y x, (drawField s start field).cells y x =
      if Inside (⟨x, y⟩ - start) then (field.getState (⟨x, y⟩ - start)).char
      else s.cells y x := by
  have fits : ∀ i < fieldSize, ∀ j < fieldSize,
      s.Within (start.y + (i : Int)) (start.x + (j : Int)) := by
    intro i small j small'
    unfold fieldSize at small small'
    exact roomy.within (by omega) (by omega)
  obtain ⟨size, cells⟩ := drawBox_cells (fun i j => (field.getState ⟨j, i⟩).char) fits
  refine ⟨size, fun y x => (cells y x).trans ?_⟩
  refine if_ctx_congr ?_ (fun inside => ?_) fun _ => rfl
  · unfold Inside fldSz fieldSize
    simp only [Point.sub_x, Point.sub_y]
    omega
  · obtain ⟨left, _, top, _⟩ := inside
    have column : ((x - start.x).toNat : Int) = x - start.x := Int.toNat_of_nonneg left
    have line : ((y - start.y).toNat : Int) = y - start.y := Int.toNat_of_nonneg top
    rw [column, line]
    rfl

theorem drawBackground_draws (roomy : Roomy s) (background : Background) :
    s.SameSize (drawBackground background s) ∧ ∀ y x, (drawBackground background s).cells y x =
      if 0 ≤ y ∧ y < 21 ∧ 0 ≤ x ∧ x < 25 then background y.toNat x.toNat else s.cells y x := by
  have fits : ∀ i < backgroundHeight, ∀ j < backgroundWidth,
      s.Within (0 + (i : Int)) (0 + (j : Int)) := by
    intro i small j small'
    unfold backgroundHeight at small
    unfold backgroundWidth at small'
    exact roomy.within (by omega) (by omega)
  obtain ⟨size, cells⟩ := drawBox_cells background fits
  refine ⟨size, fun y x => ?_⟩
  have area : (0 ≤ y ∧ y < 0 + (backgroundHeight : Int) ∧ 0 ≤ x ∧ x < 0 + (backgroundWidth : Int)) ↔
      0 ≤ y ∧ y < 21 ∧ 0 ≤ x ∧ x < 25 := by
    unfold backgroundHeight backgroundWidth
    omega
  rw [drawBackground, cells, if_congr area rfl rfl, Int.sub_zero, Int.sub_zero]

theorem stateText_length (state : UInt32) : (stateText state).length ≤ gameStatusWidth := by
  unfold stateText
  cases GameState.ofCode state with
  | none => exact Nat.zero_le gameStatusWidth
  | some known => cases known <;> decide +kernel

theorem drawGameState_draws (roomy : Roomy s) (ui : NcursesInterface) :
    s.SameSize (ui.drawGameState s) ∧ ∀ y x, (ui.drawGameState s).cells y x =
      if y = gameStatusY ∧ gameStatusX ≤ x ∧ x < gameStatusX + gameStatusWidth then
        lineChar (stateText ui.state) (x - gameStatusX).toNat
      else s.cells y x := by
  obtain ⟨size, cells⟩ := line_draws roomy (y := gameStatusY) (x := gameStatusX) (by decide)
    (by decide) (by decide) (stateText ui.state) (stateText_length ui.state)
  exact ⟨size.trans (returnToPos_draws ui _).1, fun y x => by
    rw [drawGameState, (returnToPos_draws ui _).2, cells]⟩

theorem drawServerConnState_draws (roomy : Roomy s) (ui : NcursesInterface) :
    s.SameSize (ui.drawServerConnState s) ∧ ∀ y x, (ui.drawServerConnState s).cells y x =
      if y = serverStateY ∧ serverStateX ≤ x ∧ x < serverStateX + fieldSize then
        lineChar (connText ui.hasSeverConn) (x - serverStateX).toNat
      else s.cells y x := by
  have fits : (connText ui.hasSeverConn).length ≤ fieldSize := by
    cases ui.hasSeverConn <;> decide
  obtain ⟨size, cells⟩ := line_draws roomy (y := serverStateY) (x := serverStateX) (by decide)
    (by decide) (by decide) (connText ui.hasSeverConn) fits
  exact ⟨size.trans (returnToPos_draws ui _).1, fun y x => by
    rw [drawServerConnState, (returnToPos_draws ui _).2, cells]⟩

theorem drawTimer_draws (roomy : Roomy s) (ui : NcursesInterface) (now : Int64) :
    s.SameSize (ui.drawTimer now s) ∧ ∀ y x, (ui.drawTimer now s).cells y x =
      if (ui.timer.isActive ∧ ui.timer.remain now ≠ 0) ∧
          y = timerY ∧ timerX ≤ x ∧ x < timerX + timerWidth then
        lineChar (timerText (ui.timer.remain now)) (x - timerX).toNat
      else s.cells y x := by
  unfold drawTimer
  by_cases active : ui.timer.isActive = true
  · by_cases over_ : ui.timer.remain now = 0
    · simp [over_, Screen.SameSize.refl]
    · have fits : (timerText (ui.timer.remain now)).length ≤ timerWidth :=
        (List.length_take_le 5 _).trans (by decide)
      obtain ⟨size, cells⟩ := line_draws roomy (y := timerY) (x := timerX) (by decide)
        (by decide) (by decide) (timerText (ui.timer.remain now)) fits
      simp only [active, Bool.not_true, Bool.false_eq_true, if_false, over_, ne_eq,
        not_false_eq_true, and_self, true_and]
      exact ⟨size.trans (returnToPos_draws ui _).1, fun y x => by
        rw [(returnToPos_draws ui _).2, cells]⟩
  · simp [active, Screen.SameSize.refl]

theorem drawFields_draws (roomy : Roomy s) (ui : NcursesInterface) (background : Background) :
    let s' := ui.drawEnemyField (ui.drawOwnField (drawBackground background s))
    s.SameSize s' ∧ ∀ y x, s'.cells y x =
      if Inside (⟨x, y⟩ - enemyFieldStart) then
        (ui.enemyField.getState (⟨x, y⟩ - enemyFieldStart)).char
      else if Inside (⟨x, y⟩ - ownFieldStart) then
        (ui.ownField.getState (⟨x, y⟩ - ownFieldStart)).char
      else if 0 ≤ y ∧ y < 21 ∧ 0 ≤ x ∧ x < 25 then background y.toNat x.toNat
      else s.cells y x := by
  intro s'
  obtain ⟨size₁, ground⟩ := drawBackground_draws roomy background
  obtain ⟨size₂, own⟩ := drawField_draws (roomy.of_size size₁) ownFieldStart (by decide)
    (by decide) ui.ownField
  have size₂ := size₁.trans (size₂.trans (returnToPos_draws ui _).1)
  obtain ⟨size₃, enemy⟩ := drawField_draws (roomy.of_size size₂) enemyFieldStart
    (by decide) (by decide) ui.enemyField
  refine ⟨size₂.trans (size₃.trans (returnToPos_draws ui _).1), fun y x => ?_⟩
  refine (congrFun (congrFun (returnToPos_draws ui _).2 y) x).trans ?_
  rw [drawOwnField, enemy, (returnToPos_draws ui _).2, own, ground]

/-- What was there before is seen only outside of the area of the background. -/
theorem showScreen_draws (roomy : Roomy s) (ui : NcursesInterface) (background : Background)
    (now : Int64) :
    s.SameSize (ui.showScreen background now s) ∧
      ∀ y x, (ui.showScreen background now s).cells y x =
        if 0 ≤ y ∧ y < 21 ∧ 0 ≤ x ∧ x < 25 then picture ui background now y x
        else s.cells y x := by
  obtain ⟨size₁, fields⟩ := drawFields_draws roomy ui background
  obtain ⟨size₂, status⟩ := drawGameState_draws (roomy.of_size size₁) ui
  have size₂ := size₁.trans size₂
  obtain ⟨size₃, conn⟩ := drawServerConnState_draws (roomy.of_size size₂) ui
  have size₃ := size₂.trans size₃
  obtain ⟨size₄, timer⟩ := drawTimer_draws (roomy.of_size size₃) ui now
  refine ⟨size₃.trans size₄, fun y x => ?_⟩
  refine (timer y x).trans ?_
  rw [conn, status, fields]
  by_cases area : 0 ≤ y ∧ y < 21 ∧ 0 ≤ x ∧ x < 25
  · rw [if_pos area, if_pos area]
    rfl
  · have outside : ∀ start : Point, 0 ≤ start.y ∧ start.y ≤ 11 → 0 ≤ start.x ∧ start.x ≤ 15 →
        ¬ Inside (⟨x, y⟩ - start) := by
      intro start row col inside
      unfold Inside fldSz at inside
      simp only [Point.sub_x, Point.sub_y] at inside
      omega
    have line : ∀ (row col : Int) (width : Nat), 0 ≤ row ∧ row < 21 → 0 ≤ col →
        col + width ≤ 25 → ¬ (y = row ∧ col ≤ x ∧ x < col + width) := by
      intro row col width _ _ _
      omega
    rw [if_neg area, if_neg area, if_neg (outside ownFieldStart (by decide) (by decide)),
      if_neg (outside enemyFieldStart (by decide) (by decide)),
      if_neg (line gameStatusY gameStatusX gameStatusWidth (by decide) (by decide) (by decide)),
      if_neg (line serverStateY serverStateX fieldSize (by decide) (by decide) (by decide)),
      if_neg fun shown => line timerY timerX timerWidth (by decide) (by decide) (by decide) shown.2]

/-- The cursor of the terminal stands where the player's cursor is. -/
def CursorAt (ui : NcursesInterface) (s : Screen) : Prop :=
  s.row = ui.cursor.pos.y ∧ s.col = ui.cursor.pos.x

theorem returnToPos_cursor (within : s.Within ui.cursor.pos.y ui.cursor.pos.x) :
    ui.CursorAt (ui.returnToPos s) :=
  move_to within

theorem drawServerConnState_cursor (roomy : Roomy s)
    (within : s.Within ui.cursor.pos.y ui.cursor.pos.x) :
    ui.CursorAt (ui.drawServerConnState s) := by
  have size := (drawServerConnState_draws roomy ui).1
  exact returnToPos_cursor ((returnToPos_draws ui _).1.within.mp (size.within.mpr within))

theorem drawTimer_cursor (roomy : Roomy s) (within : s.Within ui.cursor.pos.y ui.cursor.pos.x)
    (here : ui.CursorAt s) (now : Int64) : ui.CursorAt (ui.drawTimer now s) := by
  have size := (drawTimer_draws roomy ui now).1
  unfold drawTimer at size ⊢
  split_ifs at size ⊢
  · exact here
  · exact here
  · exact returnToPos_cursor ((returnToPos_draws ui _).1.within.mp (size.within.mpr within))

theorem showScreen_cursor (roomy : Roomy s) (within : s.Within ui.cursor.pos.y ui.cursor.pos.x)
    (background : Background) (now : Int64) :
    ui.CursorAt (ui.showScreen background now s) := by
  have fields := (drawFields_draws roomy ui background).1
  have status := fields.trans (drawGameState_draws (roomy.of_size fields) ui).1
  have conn := status.trans (drawServerConnState_draws (roomy.of_size status) ui).1
  apply drawTimer_cursor (roomy.of_size conn) (conn.within.mpr within)
  exact drawServerConnState_cursor (roomy.of_size status) (status.within.mpr within)

end Drawing
end NcursesInterface
end Battleship
