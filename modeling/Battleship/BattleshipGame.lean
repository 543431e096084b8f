import Battleship.NcursesInterface
import Battleship.MsgBuffer

/-! The interface process of client/game/bs_game.cpp: it passes the player's requests to
the client process, at the other end of a pipe, and brings what comes from there to the
interface. -/
namespace Battleship

open Runs

structure BattleshipGame where
  interface : NcursesInterface
  clientFd : Nat
  buf : MsgBuffer
  fromServer : List Message
  toServer : List Message
  quitFlag : Bool
  line : Line

namespace BattleshipGame

def init (clientFd : Nat) : BattleshipGame where
  interface := NcursesInterface.init
  clientFd := clientFd
  buf := MsgBuffer.init
  fromServer := []
  toServer := []
  quitFlag := false
  line := Line.init

def put (game : BattleshipGame) (body : Body) : BattleshipGame :=
  { game with toServer := game.toServer ++ [Message.new body] }

/-! ### Keys -/

def reqServerConnStatus (game : BattleshipGame) : BattleshipGame := game.put .serverConnStatusReq

def reqServerConn (game : BattleshipGame) : BattleshipGame := game.put .serverConnReq

def reqGameSession (game : BattleshipGame) : BattleshipGame := game.put .gameSessionReq

def moveBody (point : Point) : Body := .gameMove (Int32.ofInt point.x) (Int32.ofInt point.y)

def sendShotPos (game : BattleshipGame) : BattleshipGame :=
  let ui := game.interface.stopOwnTurnMode
  { game with interface := ui }.put (moveBody ui.lastShot)

/-- The `switch` of `run`; at `QUIT_IN` the function returns, so nothing follows. -/
def processKey (game : BattleshipGame) (key : Key) : BattleshipGame :=
  let game' := { game with interface := (game.interface.processInput key).2 }
  match (game.interface.processInput key).1 with
  | .quit => game'
  | .reqServerConnStatus => game'.reqServerConnStatus
  | .reqServerConn => game'.reqServerConn
  | .reqGameSession => game'.reqGameSession
  | .invalid => game'
  | .prepareField => game'
  | .cursorMove => game'
  | .shot => game'.sendShotPos

/-! ### Messages from the server -/

def processStartTurnMsg (ui : NcursesInterface) (endTime : Int64) (isOwn : Bool)
    (read : Readings) : NcursesInterface :=
  if isOwn then (ui.activateOwnTurnMode endTime read).setGameState GameState.ownTurn.code
  else (ui.activateEnemyTurnMode endTime read).setGameState GameState.enemyTurn.code

def processStopTurnMsg (ui : NcursesInterface) (isOwn : Bool) : NcursesInterface :=
  (if isOwn then ui.stopOwnTurnMode else ui.stopEnemyTurnMode).setGameState
    GameState.processTurn.code

def processStartFieldReqMsg (ui : NcursesInterface) (endTime : Int64) (read : Readings) :
    NcursesInterface :=
  (ui.activatePreparationMode endTime read).setGameState GameState.preparation.code

def processStopPreparationMsg (game : BattleshipGame) : BattleshipGame :=
  let ui := game.interface.stopPreparationMode.setGameState GameState.waitStart.code
  { game with interface := ui }.put (.gameField ui.ownField true)

def processFieldMsg (ui : NcursesInterface) (field : GameField) (isOwnField : Bool) :
    NcursesInterface :=
  if isOwnField then ui.setOwnField field else ui.setEnemyField field

def processMsg (game : BattleshipGame) (msg : Message) (read : Readings) : BattleshipGame :=
  match msg.body with
  | .gameState state => { game with interface := game.interface.setGameState state }
  | .gameField field isOwnField =>
      { game with interface := processFieldMsg game.interface field isOwnField }
  | .serverConnStatus connected =>
      { game with interface := game.interface.setServerConnState connected }
  | .startFieldReq endTime =>
      { game with interface := processStartFieldReqMsg game.interface endTime read }
  | .stopPreparation => game.processStopPreparationMsg
  | .startTurn endTime isOwn =>
      { game with interface := processStartTurnMsg game.interface endTime isOwn read }
  | .stopTurn isOwn => { game with interface := processStopTurnMsg game.interface isOwn }
  | _ => game

def processMsgs : BattleshipGame → List Message → (Nat → Readings) → BattleshipGame
  | game, [], _ => game
  | game, msg :: msgs, clock =>
      processMsgs (game.processMsg msg (clock 0)) msgs fun n => clock (n + 1)

def processMsgFromServer (game : BattleshipGame) (clock : Nat → Readings) : BattleshipGame :=
  processMsgs { game with fromServer := [] } game.fromServer clock

/-! ### The pipe -/

def writeMsgForServer (game : BattleshipGame) (results : List Int) : BattleshipGame :=
  let (line, queue) := game.line.writeLoop game.toServer results
  { game with line := line, toServer := queue }

def readMsgFromServer (game : BattleshipGame) (answer : Option (List UInt8)) :
    Except BufFault BattleshipGame := do
  let (err, buf) ← game.buf.readMsg game.clientFd answer
  if err = .buffOk then
    let (msgs, buf) := buf.drain
    .ok { game with
      buf := buf
      fromServer := game.fromServer ++ msgs
      line := { game.line with read := game.line.read ++ msgs } }
  else .ok { game with buf := buf, quitFlag := game.quitFlag || decide (err = .connBroken) }

/-! ### The main loop -/

/-- What comes from outside in one turn of the loop of `run`. `result` is that of `select`;
`readable` and `writable` say whether the descriptor is in the sets then, with what `read`
and the calls of `write` return. -/
structure Turn where
  key : Key
  result : Int
  readable : Option (Option (List UInt8))
  writable : Option (List Int)
  clock : Nat → Readings

inductive Stop where
  | returned
  | buffer (fault : BufFault)
  /-- `select` adds no descriptor to the sets. -/
  | notEnabled
  deriving DecidableEq, Repr

def processFdActions (game : BattleshipGame) (turn : Turn) : Except Stop BattleshipGame := do
  let game ← (match turn.readable with
    | none => .ok game
    | some answer => (game.readMsgFromServer answer).mapError .buffer)
  let game := game.processMsgFromServer turn.clock
  match turn.writable with
  | none => .ok game
  | some results => .ok (game.writeMsgForServer results)

def processSelectResult (game : BattleshipGame) (turn : Turn) : Except Stop BattleshipGame :=
  if turn.result = -1 then .ok game else game.processFdActions turn

def turn (game : BattleshipGame) (turn : Turn) : Except Stop BattleshipGame :=
  if game.quitFlag ∨ (game.interface.processInput turn.key).1 = .quit then .error .returned
  else
    let game := game.processKey turn.key
    if turn.writable.isSome ∧ game.toServer = [] then .error .notEnabled
    else game.processSelectResult turn

abbrev run : BattleshipGame → List Turn → Except Stop BattleshipGame := Runs.run turn

end BattleshipGame
end Battleship
