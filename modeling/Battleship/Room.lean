import Battleship.Server
import Mathlib.Data.Set.Insert

/-! What a game session is for: a room with two seats, the countdowns that are
still running for it and, for each seat, the session states its player has been
told since he connected. `Step` lists everything that can happen to a room; the
server is shown to do nothing else. -/
namespace Battleship

/-- The session state a message conveys to the player who gets it. -/
def Body.news : Body → Option GameState
  | .gameState code => GameState.ofCode code
  | .startFieldReq _ => some .preparation
  | .stopPreparation => some .waitStart
  | .startTurn _ _ => some .gameTurn
  | .stopTurn _ => some .processTurn
  | _ => none

/-- A result is announced while the last turn is still being processed. -/
def GameState.meant : GameState → GameState
  | .winGame => .processTurn
  | .loseGame => .processTurn
  | state => state

namespace Session

def Full (session : Session) : Prop := ∀ i, ∃ c, session.players i = some c

/-- A turn is being played or processed. -/
def Playing (session : Session) : Prop :=
  session.state = .gameTurn ∨ session.state = .processTurn

instance (session : Session) : Decidable session.Playing := inferInstanceAs (Decidable (_ ∨ _))

/-- The number of taken slots is the one the state stands for. -/
def Agrees (session : Session) : Prop :=
  (session.getPlayersCount = 0 ↔ session.state = .noVacantGame) ∧
    (session.getPlayersCount = 1 ↔ session.state = .waitPlayer) ∧
    (session.getPlayersCount = 2 ↔
      session.state ≠ .noVacantGame ∧ session.state ≠ .waitPlayer)

/-- One turn of the loop of `check_start_fields`, seen from the session. -/
def evict (session : Session) (i : PlayerIdx) : Session :=
  if (session.players i).isSome ∧ (session.fields i).isValidStartField = false then
    session.freeSlot i
  else session

def evictInvalid (session : Session) : Session := (session.evict 0).evict 1

/-- The handler finds the session in a state it acts on. -/
def Expects (session : Session) : TimeoutKind → Prop
  | .preparation => session.state = .preparation
  | .checkStartFields => ∃ i c, session.players i = some c
  | .gameStart => session.state = .waitStart
  | .gameTurn => session.state = .gameTurn
  | .changeTurn => session.state = .processTurn
  | .endGame => ∃ i c, session.players i = some c

/-- The numbers that are given to the event of the handler run out. -/
def RunsOut (session : Session) (kind : TimeoutKind) (draws : List Nat) : Prop :=
  (kind = .gameStart ∧ draws = []) ∨ (kind = .changeTurn ∧ session.registerShot draws = none)

def EndedBy (session : Session) : TimeoutKind → Prop
  | .preparation => session.state = .preparation
  | .checkStartFields => session.state = .waitStart
  | .gameStart => session.state = .waitStart
  | .gameTurn => session.state = .gameTurn
  | .changeTurn => session.state = .processTurn
  | .endGame => session.state = .processTurn

def Timed (session : Session) : Prop := ∃ kind, session.EndedBy kind

def nextTurn (session : Session) (shotRes : CellState) : Session :=
  if shotRes ≠ .damaged then session.changeCurTurnPlayerIdx else session

end Session

@[ext] structure Room where
  session : Session
  pending : Set (HandlerId × TimeoutKind)
  told : PlayerIdx → List GameState

inductive Action where
  | idle
  | join (i : PlayerIdx) (player : ClientId)
  | leave (i : PlayerIdx)
  | ask (i : PlayerIdx)
  | submit (i : PlayerIdx) (field : GameField)
  | move (point : Point)
  | fire (kind : TimeoutKind) (draws : List Nat)

namespace Room

def Fresh (room : Room) (h : HandlerId) : Prop := ∀ kind, (h, kind) ∉ room.pending

def without (room : Room) (h : HandlerId) : Room :=
  { room with pending := { p ∈ room.pending | p.1 ≠ h } }

def arm (room : Room) (h : HandlerId) (kind : TimeoutKind) : Room :=
  { room with pending := insert (h, kind) room.pending }

def withSession (room : Room) (session : Session) : Room := { room with session := session }

def tell (room : Room) (i : PlayerIdx) (state : GameState) : Room :=
  { room with told := Function.update room.told i (room.told i ++ [state]) }

def tellBoth (room : Room) (state : GameState) : Room :=
  { room with told := fun i => room.told i ++ [state] }

def enter (room : Room) (state : GameState) : Room :=
  (room.tellBoth state).withSession { room.session with state := state }

def seat (room : Room) (i : PlayerIdx) (player : ClientId) (earlier : List GameState) : Room :=
  { room with
    session := { room.session with
      players := Function.update room.session.players i (some player) }
    told := Function.update room.told i earlier }

def leave (room : Room) (i : PlayerIdx) : Room :=
  { room with session := room.session.freeSlot i, told := Function.update room.told i [] }

def startTurn (room : Room) (h : HandlerId) : Room :=
  ((room.enter .gameTurn).withSession
    { room.session with state := .gameTurn, turnTimeout := some h }).arm h .gameTurn

def endTurn (room : Room) (t h : HandlerId) : Room :=
  (((room.enter .processTurn).withSession
    { room.session with state := .processTurn, turnTimeout := none }).without t).arm h .changeTurn

def tellResult (room : Room) : Room :=
  (room.tell room.session.curTurnPlayerIdx .winGame).tell room.session.enemyIdx .loseGame

/-- After the field check one player is left: he waits again. -/
def waitAgain (room : Room) : Room :=
  { room with
    session := { room.session with state := .waitPlayer }
    told := fun i =>
      if (room.session.players i).isSome then room.told i ++ [.waitPlayer] else room.told i }

def evictInvalid (room : Room) : Room :=
  { room with
    session := room.session.evictInvalid
    told := fun i => if (room.session.evictInvalid.players i).isSome then room.told i else [] }

/-- Everyone leaves. -/
def empty (room : Room) : Room :=
  { room with
    session := { room.session with players := fun _ => none, state := .noVacantGame }
    told := fun _ => [] }

@[simp] theorem without_session (room : Room) (h : HandlerId) :
    (room.without h).session = room.session := rfl
@[simp] theorem without_told (room : Room) (h : HandlerId) :
    (room.without h).told = room.told := rfl
@[simp] theorem mem_without (room : Room) (h : HandlerId) (p : HandlerId × TimeoutKind) :
    p ∈ (room.without h).pending ↔ p ∈ room.pending ∧ p.1 ≠ h := Iff.rfl

@[simp] theorem arm_session (room : Room) (h : HandlerId) (kind : TimeoutKind) :
    (room.arm h kind).session = room.session := rfl
@[simp] theorem arm_told (room : Room) (h : HandlerId) (kind : TimeoutKind) :
    (room.arm h kind).told = room.told := rfl
@[simp] theorem mem_arm (room : Room) (h : HandlerId) (kind : TimeoutKind)
    (p : HandlerId × TimeoutKind) :
    p ∈ (room.arm h kind).pending ↔ p = (h, kind) ∨ p ∈ room.pending := Iff.rfl

@[simp] theorem withSession_session (room : Room) (session : Session) :
    (room.withSession session).session = session := rfl
@[simp] theorem withSession_pending (room : Room) (session : Session) :
    (room.withSession session).pending = room.pending := rfl
@[simp] theorem withSession_told (room : Room) (session : Session) :
    (room.withSession session).told = room.told := rfl

@[simp] theorem tell_session (room : Room) (i : PlayerIdx) (state : GameState) :
    (room.tell i state).session = room.session := rfl
@[simp] theorem tell_pending (room : Room) (i : PlayerIdx) (state : GameState) :
    (room.tell i state).pending = room.pending := rfl

@[simp] theorem tellBoth_session (room : Room) (state : GameState) :
    (room.tellBoth state).session = room.session := rfl
@[simp] theorem tellBoth_pending (room : Room) (state : GameState) :
    (room.tellBoth state).pending = room.pending := rfl

@[simp] theorem enter_session (room : Room) (state : GameState) :
    (room.enter state).session = { room.session with state := state } := rfl
@[simp] theorem enter_pending (room : Room) (state : GameState) :
    (room.enter state).pending = room.pending := rfl
@[simp] theorem enter_told (room : Room) (state : GameState) (i : PlayerIdx) :
    (room.enter state).told i = room.told i ++ [state] := rfl

@[simp] theorem seat_session (room : Room) (i : PlayerIdx) (player : ClientId)
    (earlier : List GameState) : (room.seat i player earlier).session = { room.session with
      players := Function.update room.session.players i (some player) } := rfl
@[simp] theorem seat_pending (room : Room) (i : PlayerIdx) (player : ClientId)
    (earlier : List GameState) : (room.seat i player earlier).pending = room.pending := rfl

@[simp] theorem leave_session (room : Room) (i : PlayerIdx) :
    (room.leave i).session = room.session.freeSlot i := rfl
@[simp] theorem leave_pending (room : Room) (i : PlayerIdx) :
    (room.leave i).pending = room.pending := rfl

@[simp] theorem startTurn_session (room : Room) (h : HandlerId) :
    (room.startTurn h).session =
      { room.session with state := .gameTurn, turnTimeout := some h } := rfl
@[simp] theorem startTurn_told (room : Room) (h : HandlerId) (i : PlayerIdx) :
    (room.startTurn h).told i = room.told i ++ [.gameTurn] := rfl
@[simp] theorem mem_startTurn (room : Room) (h : HandlerId) (p : HandlerId × TimeoutKind) :
    p ∈ (room.startTurn h).pending ↔ p = (h, .gameTurn) ∨ p ∈ room.pending := Iff.rfl

@[simp] theorem endTurn_session (room : Room) (t h : HandlerId) :
    (room.endTurn t h).session =
      { room.session with state := .processTurn, turnTimeout := none } := rfl
@[simp] theorem endTurn_told (room : Room) (t h : HandlerId) (i : PlayerIdx) :
    (room.endTurn t h).told i = room.told i ++ [.processTurn] := rfl
@[simp] theorem mem_endTurn (room : Room) (t h : HandlerId) (p : HandlerId × TimeoutKind) :
    p ∈ (room.endTurn t h).pending ↔
      p = (h, .changeTurn) ∨ p ∈ room.pending ∧ p.1 ≠ t := Iff.rfl

@[simp] theorem tellResult_session (room : Room) : room.tellResult.session = room.session := rfl
@[simp] theorem tellResult_pending (room : Room) : room.tellResult.pending = room.pending := rfl

@[simp] theorem waitAgain_session (room : Room) :
    room.waitAgain.session = { room.session with state := .waitPlayer } := rfl
@[simp] theorem waitAgain_pending (room : Room) : room.waitAgain.pending = room.pending := rfl

@[simp] theorem evictInvalid_session (room : Room) :
    room.evictInvalid.session = room.session.evictInvalid := rfl
@[simp] theorem evictInvalid_pending (room : Room) :
    room.evictInvalid.pending = room.pending := rfl

@[simp] theorem empty_session (room : Room) : room.empty.session =
    { room.session with players := fun _ => none, state := .noVacantGame } := rfl
@[simp] theorem empty_pending (room : Room) : room.empty.pending = room.pending := rfl

inductive Step : Action → Room → Room → Prop where
  | idle {room : Room} : Step .idle room room
  | joinFirst {room : Room} {c : ClientId} {earlier : List GameState}
      (vacant : ∀ i, room.session.players i = none)
      (closed : room.session.state = .noVacantGame) :
      Step (.join 0 c) room
        (((room.seat 0 c earlier).withSession { (room.seat 0 c earlier).session with
          state := .waitPlayer }).tell 0 .waitPlayer)
  | joinSecond {room : Room} {i : PlayerIdx} {b c : ClientId} {h : HandlerId}
      {earlier : List GameState} (free : room.session.players i = none)
      (host : room.session.players (getEnemyIdx i) = some b) (other : b ≠ c)
      (waiting : room.session.state = .waitPlayer) (fresh : room.Fresh h) :
      Step (.join i c) room (((room.seat i c earlier).enter .preparation).arm h .preparation)
  | leave {room : Room} {i : PlayerIdx} {c : ClientId}
      (seated : room.session.players i = some c) : Step (.leave i) room (room.leave i)
  | ask {room : Room} {i : PlayerIdx} {c : ClientId}
      (seated : room.session.players i = some c) :
      Step (.ask i) room (room.tell i room.session.state)
  | submit {room : Room} {i : PlayerIdx} {c : ClientId} {field : GameField}
      (seated : room.session.players i = some c)
      (phase : room.session.state = .preparation ∨ room.session.state = .waitStart)
      (valid : field.isValidStartField = true) :
      Step (.submit i field) room (room.withSession { room.session with
        fields := Function.update room.session.fields i field })
  | move {room : Room} {point : Point} {t h : HandlerId}
      (turn : room.session.state = .gameTurn) (clear : room.session.lastShot = noShot)
      (running : room.session.turnTimeout = some t) (fresh : room.Fresh h) :
      Step (.move point) room
        ((room.withSession { room.session with lastShot := point }).endTurn t h)
  | lateMove {room : Room} {point : Point} (turn : room.session.state = .processTurn)
      (clear : room.session.lastShot = noShot) :
      Step (.move point) room (room.withSession { room.session with lastShot := point })
  | expire {room : Room} {h : HandlerId} {kind : TimeoutKind} {draws : List Nat}
      (pending : (h, kind) ∈ room.pending) (late : ¬ room.session.Expects kind) :
      Step (.fire kind draws) room (room.without h)
  | stopPreparation {room : Room} {h h' : HandlerId} {draws : List Nat}
      (pending : (h, .preparation) ∈ room.pending) (state : room.session.state = .preparation) (fresh : (room.without h).Fresh h') :
      Step (.fire .preparation draws) room
        ((((room.without h).enter .waitStart).enter .waitStart).arm h' .checkStartFields)
  | fieldsAccepted {room : Room} {h h' : HandlerId} {draws : List Nat}
      (pending : (h, .checkStartFields) ∈ room.pending) (full : room.session.Full)
      (valid : ∀ i, (room.session.fields i).isValidStartField = true) (fresh : (room.without h).Fresh h') :
      Step (.fire .checkStartFields draws) room ((room.without h).arm h' .gameStart)
  | oneLeft {room : Room} {h : HandlerId} {draws : List Nat}
      (pending : (h, .checkStartFields) ∈ room.pending)
      (left : room.session.evictInvalid.getPlayersCount = 1) :
      Step (.fire .checkStartFields draws) room ((room.without h).evictInvalid.waitAgain)
  | noneLeft {room : Room} {h : HandlerId} {draws : List Nat}
      (pending : (h, .checkStartFields) ∈ room.pending)
      (left : room.session.evictInvalid.getPlayersCount = 0) :
      Step (.fire .checkStartFields draws) room (room.without h).evictInvalid
  | startGame {room : Room} {h h' : HandlerId} {first : PlayerIdx} {draws : List Nat}
      (pending : (h, .gameStart) ∈ room.pending)
      (state : room.session.state = .waitStart) (fresh : (room.without h).Fresh h') :
      Step (.fire .gameStart draws) room
        (((room.without h).withSession { room.session with curTurnPlayerIdx := first }).startTurn h')
  | endTurn {room : Room} {t h h' : HandlerId} {draws : List Nat}
      (pending : (h, .gameTurn) ∈ room.pending) (state : room.session.state = .gameTurn) (running : room.session.turnTimeout = some t)
      (fresh : (room.without h).Fresh h') :
      Step (.fire .gameTurn draws) room ((room.without h).endTurn t h')
  | gameOver {room : Room} {h h' : HandlerId} {draws : List Nat} {shotRes : CellState}
      {session : Session} (pending : (h, .changeTurn) ∈ room.pending)
      (state : room.session.state = .processTurn)
      (shot : room.session.registerShot draws = some (shotRes, session))
      (finished : session.isGameOver = true) (fresh : (room.without h).Fresh h') :
      Step (.fire .changeTurn draws) room
        (((room.without h).withSession session).tellResult.arm h' .endGame)
  | changeTurn {room : Room} {h h' : HandlerId} {draws : List Nat} {shotRes : CellState}
      {session : Session} (pending : (h, .changeTurn) ∈ room.pending)
      (state : room.session.state = .processTurn)
      (shot : room.session.registerShot draws = some (shotRes, session))
      (ongoing : session.isGameOver = false) (fresh : (room.without h).Fresh h') :
      Step (.fire .changeTurn draws) room
        (((room.without h).withSession (session.nextTurn shotRes)).startTurn h')
  | endGame {room : Room} {h : HandlerId} {draws : List Nat}
      (pending : (h, .endGame) ∈ room.pending)
      (seated : ∃ i c, room.session.players i = some c) :
      Step (.fire .endGame draws) room (room.without h).empty

end Room
end Battleship
