import Mathlib.Algebra.Order.Ring.Int
import Mathlib.Data.Fintype.BigOperators
import Mathlib.Tactic

/-! The enumerations and durations of core/const.h. A C enumeration is an
inductive type; its numeric value is `code`, which is what the wire carries. -/
namespace Battleship

inductive GameState where
  | noVacantGame
  | waitPlayer
  | waitPreparation
  | preparation
  | waitStart
  | gameTurn
  | processTurn
  | ownTurn
  | enemyTurn
  | winGame
  | loseGame
  deriving DecidableEq, Repr

def GameState.code : GameState → UInt32
  | .noVacantGame => 0
  | .waitPlayer => 1
  | .waitPreparation => 2
  | .preparation => 3
  | .waitStart => 4
  | .gameTurn => 5
  | .processTurn => 6
  | .ownTurn => 7
  | .enemyTurn => 8
  | .winGame => 9
  | .loseGame => 10

def GameState.ofCode (code : UInt32) : Option GameState :=
  [noVacantGame, waitPlayer, waitPreparation, preparation, waitStart, gameTurn, processTurn,
    ownTurn, enemyTurn, winGame, loseGame].find? fun state => state.code = code

@[simp] theorem GameState.ofCode_code (state : GameState) :
    GameState.ofCode state.code = some state := by
  cases state <;> rfl

def turnDuration : Int := 15
def preparationDuration : Int := 70
def waitDuration : Int := 2

/-- The fourteen concrete message types. `INVALID_MSG` (0) and `UNDEFINED_MSG`
(15) are no message: `MsgType.ofCode` answers `none` for both. -/
inductive MsgType where
  | gameState
  | gameSessionReq
  | gameField
  | startFieldReq
  | stopPreparation
  | startTurn
  | stopTurn
  | gameMove
  | serverConnStatusReq
  | serverConnStatus
  | serverConnReq
  | receipt
  | info
  | error
  deriving DecidableEq, Repr

def MsgType.code : MsgType → Nat
  | .gameState => 1
  | .gameSessionReq => 2
  | .gameField => 3
  | .startFieldReq => 4
  | .stopPreparation => 5
  | .startTurn => 6
  | .stopTurn => 7
  | .gameMove => 8
  | .serverConnStatusReq => 9
  | .serverConnStatus => 10
  | .serverConnReq => 11
  | .receipt => 12
  | .info => 13
  | .error => 14

def MsgType.ofCode : Nat → Option MsgType
  | 1 => some .gameState
  | 2 => some .gameSessionReq
  | 3 => some .gameField
  | 4 => some .startFieldReq
  | 5 => some .stopPreparation
  | 6 => some .startTurn
  | 7 => some .stopTurn
  | 8 => some .gameMove
  | 9 => some .serverConnStatusReq
  | 10 => some .serverConnStatus
  | 11 => some .serverConnReq
  | 12 => some .receipt
  | 13 => some .info
  | 14 => some .error
  | _ => none

@[simp] theorem MsgType.ofCode_code (type : MsgType) : MsgType.ofCode type.code = some type := by
  cases type <;> rfl

theorem MsgType.code_of_ofCode {code : Nat} {type : MsgType}
    (known : MsgType.ofCode code = some type) : type.code = code := by
  unfold MsgType.ofCode at known
  split at known <;> simp_all [MsgType.code] <;> subst known <;> rfl

theorem MsgType.code_range (type : MsgType) : 1 ≤ type.code ∧ type.code ≤ 14 := by
  cases type <;> decide

end Battleship
