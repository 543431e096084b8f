import Battleship.GameField
import Battleship.Cursor

/-! The player's interface: the state of client/interface/game_interface.cpp, the keys and
the modes of client/ncurses/ncurses_interface.cpp and the timer of core/timer.cpp. Of the
terminal only the visibility of its cursor is kept here. -/
namespace Battleship

/-! ### The timer -/

structure Timer where
  startTime : Int64
  duration : Int64
  deriving DecidableEq, Repr

namespace Timer

def inactive : Int64 := -1

def new (duration : Int64) : Timer := ⟨inactive, duration⟩

def start (timer : Timer) (now : Int64) : Timer := { timer with startTime := now }

def stop (timer : Timer) : Timer := { timer with startTime := inactive }

def setDuration (timer : Timer) (duration : Int64) : Timer :=
  { timer with duration := if duration < 0 then 0 else duration }

def isActive (timer : Timer) : Bool := decide (timer.startTime ≠ inactive ∧ 0 < timer.duration)

def remain (timer : Timer) (curTime : Int64) : Int64 :=
  if !timer.isActive then 0
  else
    let ret := timer.duration - (curTime - timer.startTime)
    if ret < 0 then 0 else ret

end Timer

/-! ### The interface -/

inductive InterfaceMode where
  | idle
  | wait
  | preparation
  | ownTurn
  | enemyTurn
  deriving DecidableEq, Repr

inductive InputResult where
  | quit
  | reqServerConnStatus
  | reqServerConn
  | reqGameSession
  | prepareField
  | cursorMove
  | shot
  | invalid
  deriving DecidableEq, Repr

/-- What `getch` returns; `other` is any key without a meaning, `err` no key. -/
inductive Key where
  | up
  | down
  | left
  | right
  | space
  | s
  | c
  | q
  | other
  | err
  deriving DecidableEq, Repr

def ownFieldStart : Point := ⟨1, 3⟩
def enemyFieldStart : Point := ⟨14, 3⟩
def fieldSize : Nat := 10

/-- `state` is kept as the number it is given: it may come from a message. `cursorShown`
is what `curs_set` was last told. -/
structure NcursesInterface where
  hasSeverConn : Bool
  ownField : GameField
  enemyField : GameField
  state : UInt32
  mode : InterfaceMode
  lastShot : Point
  cursor : Cursor
  cursorShown : Bool
  timer : Timer
  deriving DecidableEq

/-- What the two calls of `time` return when a countdown begins. -/
structure Readings where
  curTime : Int64
  startTime : Int64

namespace NcursesInterface

def moveCursorTo (ui : NcursesInterface) (start : Point) : NcursesInterface :=
  { ui with cursor := ui.cursor.setBoundary start (start + ⟨fieldSize, fieldSize⟩) }

def moveCursorToOwnField (ui : NcursesInterface) : NcursesInterface :=
  ui.moveCursorTo ownFieldStart

def moveCursorToEnemyField (ui : NcursesInterface) : NcursesInterface :=
  ui.moveCursorTo enemyFieldStart

/-- The constructor, when the background has been loaded. -/
def init : NcursesInterface :=
  moveCursorToOwnField {
    hasSeverConn := false
    ownField := GameField.new
    enemyField := GameField.new
    state := GameState.noVacantGame.code
    mode := .idle
    lastShot := ⟨0, 0⟩
    cursor := Cursor.new
    cursorShown := false
    timer := Timer.new 0 }

/-! ### What the messages call -/

def setGameState (ui : NcursesInterface) (state : UInt32) : NcursesInterface :=
  { ui with state := state }

def setServerConnState (ui : NcursesInterface) (connected : Bool) : NcursesInterface :=
  { ui with hasSeverConn := connected }

def setOwnField (ui : NcursesInterface) (field : GameField) : NcursesInterface :=
  { ui with ownField := field }

def setEnemyField (ui : NcursesInterface) (field : GameField) : NcursesInterface :=
  { ui with enemyField := field }

def setMode (ui : NcursesInterface) (mode : InterfaceMode) : NcursesInterface :=
  { ui with mode := mode }

def setLastShot (ui : NcursesInterface) (shot : Point) : NcursesInterface :=
  { ui with lastShot := shot }

def showCursor (ui : NcursesInterface) : NcursesInterface := { ui with cursorShown := true }

def hideCursor (ui : NcursesInterface) : NcursesInterface := { ui with cursorShown := false }

def startTimer (ui : NcursesInterface) (endTime : Int64) (read : Readings) : NcursesInterface :=
  { ui with timer := (ui.timer.setDuration (endTime - read.curTime)).start read.startTime }

def stopTimer (ui : NcursesInterface) : NcursesInterface := { ui with timer := ui.timer.stop }

def activatePreparationMode (ui : NcursesInterface) (endTime : Int64) (read : Readings) :
    NcursesInterface :=
  ((ui.setMode .preparation).moveCursorToOwnField.showCursor).startTimer endTime read

def stopPreparationMode (ui : NcursesInterface) : NcursesInterface :=
  if ui.mode ≠ .preparation then ui
  else ((ui.stopTimer.setMode .wait).setLastShot ⟨0, 0⟩).hideCursor

def activateOwnTurnMode (ui : NcursesInterface) (endTime : Int64) (read : Readings) :
    NcursesInterface :=
  let ui := (ui.setMode .ownTurn).moveCursorToEnemyField
  let ui := { ui with cursor := ui.cursor.setRelatedPos ui.lastShot }
  ui.showCursor.startTimer endTime read

def stopOwnTurnMode (ui : NcursesInterface) : NcursesInterface :=
  ((ui.setMode .wait).hideCursor).stopTimer

def activateEnemyTurnMode (ui : NcursesInterface) (endTime : Int64) (read : Readings) :
    NcursesInterface :=
  ((ui.setMode .enemyTurn).hideCursor).startTimer endTime read

def stopEnemyTurnMode (ui : NcursesInterface) : NcursesInterface :=
  (ui.setMode .wait).stopTimer

/-! ### Keys -/

def toggled (field : GameField) (pos : Point) : GameField :=
  if field.getState pos = .empty then field.setPoint pos .unharmed else field.setPoint pos .empty

def processEnterInput (ui : NcursesInterface) : InputResult × NcursesInterface :=
  if ui.mode = .preparation then
    let posOnField := ui.cursor.getRelatedPos
    if !GameField.contains posOnField then (.invalid, ui)
    else
      let ui := ui.setLastShot posOnField
      (.prepareField, { ui with ownField := toggled ui.ownField posOnField })
  else if ui.mode = .ownTurn then
    let shotPos := ui.cursor.getRelatedPos
    if ui.enemyField.getState shotPos ≠ .empty then (.invalid, ui)
    else (.shot, (ui.setLastShot shotPos).setMode .wait)
  else (.invalid, ui)

def processMoveInput (ui : NcursesInterface) (offset : Point) : InputResult × NcursesInterface :=
  if ui.mode ≠ .preparation ∧ ui.mode ≠ .ownTurn then (.invalid, ui)
  else (.cursorMove, { ui with cursor := ui.cursor.move offset })

def processInput (ui : NcursesInterface) : Key → InputResult × NcursesInterface
  | .up => ui.processMoveInput ⟨0, -1⟩
  | .down => ui.processMoveInput ⟨0, 1⟩
  | .left => ui.processMoveInput ⟨-1, 0⟩
  | .right => ui.processMoveInput ⟨1, 0⟩
  | .space => ui.processEnterInput
  | .s => (.reqGameSession, ui)
  | .c => (.reqServerConn, ui)
  | .q => (.quit, ui)
  | .other => (.invalid, ui)
  | .err => (.invalid, ui)

end NcursesInterface
end Battleship
