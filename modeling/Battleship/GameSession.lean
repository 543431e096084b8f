import Battleship.GameField
import Mathlib.Logic.Function.Basic

/-! The state of one game session (server/game_session.h) and the operations of
server/game_session.cpp that touch nothing else. A client is known by the
number of its `ClientData` object, a handler by the number it got when it was
made; the two players have the indices 0 and 1. -/
namespace Battleship

abbrev ClientId := Nat
abbrev HandlerId := Nat
abbrev SessionId := Nat

abbrev PlayerIdx := Fin 2

/-- The indices 0 and 1 are read with this one in every module. -/
instance neZeroPlayers : NeZero 2 := ⟨two_ne_zero⟩

structure Session where
  state : GameState
  players : PlayerIdx → Option ClientId
  fields : PlayerIdx → GameField
  curTurnPlayerIdx : PlayerIdx
  lastShot : Point
  turnTimeout : Option HandlerId

/-- `Random::rand`, of the raw number that `::rand()` returns. -/
def rand (raw lessThanNum : Nat) : Nat := if lessThanNum ≠ 0 then raw % lessThanNum else raw

def noShot : Point := ⟨-1, -1⟩

def getEnemyIdx (idx : PlayerIdx) : PlayerIdx := if idx = 0 then 1 else 0

namespace Session

def new : Session where
  state := .noVacantGame
  players := fun _ => none
  fields := fun _ => GameField.new
  curTurnPlayerIdx := 0
  lastShot := noShot
  turnTimeout := none

def isVacant (session : Session) : Bool := decide (∃ i, session.players i = none)

def hasPlayer (session : Session) (player : ClientId) : Bool :=
  decide (∃ i, session.players i = some player)

def getPlayersCount (session : Session) : Nat :=
  (if (session.players 0).isSome then 1 else 0) + (if (session.players 1).isSome then 1 else 0)

/-- `none` is the answer -1. -/
def getPlayerIndex (session : Session) (player : ClientId) : Option PlayerIdx :=
  if session.players 0 = some player then some 0
  else if session.players 1 = some player then some 1
  else none

/-- `none` is the answer `false`: nothing changes then. -/
def setPlayer (session : Session) (player : ClientId) : Option Session :=
  if !session.isVacant || session.hasPlayer player then none
  else
    let i : PlayerIdx := if session.players 0 = none then 0 else 1
    some { session with
      players := Function.update session.players i (some player)
      -- The first player opens the session, the second completes it.
      state := if session.state = .noVacantGame then .waitPlayer else .waitPreparation }

/-- The part of `disconnect_player` that frees slot `i`. -/
def freeSlot (session : Session) (i : PlayerIdx) : Session :=
  { session with
    players := Function.update session.players i none
    state := if session.state ≠ .waitPlayer then .waitPlayer else .noVacantGame }

/-- `none` is the answer `false`. -/
def setField (session : Session) (player : ClientId) (field : GameField) : Option Session :=
  if session.state ≠ .preparation ∧ session.state ≠ .waitStart then none
  else
    match session.getPlayerIndex player with
    | none => none
    | some i => some { session with fields := Function.update session.fields i field }

def hasLastShot (session : Session) : Bool := decide (session.lastShot ≠ noShot)

def clearLastShot (session : Session) : Session := { session with lastShot := noShot }

/-- `none` is the answer `false`. -/
def setLastShot (session : Session) (shot : Point) (player : ClientId) : Option Session :=
  if session.getPlayerIndex player = some session.curTurnPlayerIdx ∧ !session.hasLastShot then
    some { session with lastShot := shot }
  else none

def changeCurTurnPlayerIdx (session : Session) : Session :=
  { session with curTurnPlayerIdx := getEnemyIdx session.curTurnPlayerIdx }

def enemyIdx (session : Session) : PlayerIdx := getEnemyIdx session.curTurnPlayerIdx

/-- A random point from the next two numbers of `::rand()`. -/
def randomPoint (x y : Nat) : Point := ⟨rand x 10, rand y 10⟩

/-- The loop of `_register_shot`: shots at `lastShot` and then at random points
until one is accepted. The numbers `::rand()` will return are given; `none` says
that the loop has not ended within them. -/
def shotLoop (field : GameField) : Point → List Nat → Option (CellState × GameField)
  | lastShot, x :: y :: draws =>
      let shot := field.registerShot lastShot
      if shot.1 = .empty then shotLoop shot.2 (randomPoint x y) draws else some shot
  | _, _ => none

/-- The point `_register_shot` tries first, and the numbers left after it. -/
def firstTry (session : Session) (draws : List Nat) : Option (Point × List Nat) :=
  if session.hasLastShot then some (session.lastShot, draws)
  else
    match draws with
    | x :: y :: rest => some (randomPoint x y, rest)
    | _ => none

def registerShot (session : Session) (draws : List Nat) : Option (CellState × Session) :=
  match session.firstTry draws with
  | none => none
  | some (point, rest) =>
      match shotLoop (session.fields session.enemyIdx) point rest with
      | none => none
      | some (shotRes, field) =>
          some (shotRes, clearLastShot
            { session with fields := Function.update session.fields session.enemyIdx field })

def isGameOver (session : Session) : Bool := (session.fields session.enemyIdx).allShipsDestroyed

end Session
end Battleship
