import Battleship.Message
import Battleship.GameSession
import Battleship.Library.Runs

/-! The game server: the operations of server/game_session.cpp that reach beyond
their session, the message handlers of server/client_data.cpp and the client
bookkeeping of server/bs_server.cpp, on one state.

A pointer to a `ClientData`, `GameSession` or `TimeoutHandler` is a number that is
never given out twice. Following one that is null or whose object is deleted is
a fault. What a client's `write_msg` later takes from its queue is not part of
this state: nothing here reads it. -/
namespace Battleship

inductive Fault where
  | nullSlot          -- `players[..]->` on an empty slot
  | deadClient        -- a `ClientData` that was deleted
  | danglingTimeout   -- a `TimeoutHandler` that was deleted
  | drawsExhausted    -- `_register_shot` has not returned within the given numbers
  | notEnabled        -- no such client or handler: the event cannot occur
  deriving DecidableEq, Repr

/-- The countdown of core/timeout_handler.cpp, whose `long` times are `Int` here. -/
structure TimeoutHandler where
  sec : Int
  usec : Int
  deriving DecidableEq, Repr

namespace TimeoutHandler

def elapsed (t : TimeoutHandler) : Bool := decide (t.sec ≤ 0 ∧ t.usec ≤ 0)

def stop (_ : TimeoutHandler) : TimeoutHandler := ⟨0, 0⟩

/-- Takes the passed time off; the answer is whether the event is triggered. -/
def process (t : TimeoutHandler) (sec usec : Int) : Bool × TimeoutHandler :=
  if t.elapsed then (false, t)
  else
    let t : TimeoutHandler :=
      if t.usec - usec < 0 then
        if 0 ≤ t.sec - 1 then ⟨t.sec - 1, t.usec - usec + 1000000⟩ else ⟨t.sec - 1, 0⟩
      else ⟨t.sec, t.usec - usec⟩
    let t : TimeoutHandler := if t.sec - sec < 0 then ⟨0, 0⟩ else ⟨t.sec - sec, t.usec⟩
    (t.elapsed, t)

@[simp] theorem stop_elapsed (t : TimeoutHandler) : t.stop.elapsed = true := rfl

theorem process_fired {t : TimeoutHandler} {sec usec : Int}
    (fired : (t.process sec usec).1 = true) :
    t.elapsed = false ∧ (t.process sec usec).2.elapsed = true := by
  unfold process at *
  split_ifs at * with before <;> simp_all

theorem process_silent {t : TimeoutHandler} {sec usec : Int} (running : t.elapsed = false)
    (silent : (t.process sec usec).1 = false) : (t.process sec usec).2.elapsed = false := by
  unfold process at *
  simp_all

end TimeoutHandler

/-- The six handler classes of server/preparation_timeout.cpp. -/
inductive TimeoutKind where
  | preparation
  | checkStartFields
  | gameStart
  | gameTurn
  | changeTurn
  | endGame
  deriving DecidableEq, Repr

structure Handler where
  id : HandlerId
  kind : TimeoutKind
  session : SessionId
  timer : TimeoutHandler

abbrev Handler.elapsed (h : Handler) : Bool := h.timer.elapsed

/-! ### Client arrays (server/client_array.cpp) -/

structure ClientArray where
  count : Int
  clients : List (Option ClientId)

namespace ClientArray

def new (size : Nat) : ClientArray := ⟨0, List.replicate size none⟩

def isFull (array : ClientArray) : Bool := array.clients.all Option.isSome

/-- `none` is the answer `false`: the array is full. -/
def add (array : ClientArray) (client : ClientId) : Option ClientArray :=
  match array.clients.findIdx? Option.isNone with
  | none => none
  | some pos => some ⟨array.count + 1, array.clients.set pos (some client)⟩

def remove (array : ClientArray) (client : ClientId) : ClientArray :=
  match array.clients.findIdx? (fun slot => slot = some client) with
  | none => array
  | some pos => ⟨array.count - 1, array.clients.set pos none⟩

end ClientArray

/-- What the game logic reads of a `ClientData` object, its queues apart. -/
structure Client where
  gameSession : Option SessionId

structure Server where
  sessionCount : Nat
  sessions : SessionId → Session
  timeoutHandlers : List Handler
  nextHandler : HandlerId
  clientsQueue : ClientArray
  clientsInGame : ClientArray
  clients : ClientId → Option Client
  nextClient : ClientId
  toSendMsg : ClientId → List Message

def clientQueueLen : Nat := 10
def gameCount : Nat := 5

namespace Server

def init : Server where
  sessionCount := 0
  sessions := fun _ => Session.new
  timeoutHandlers := []
  nextHandler := 0
  clientsQueue := ClientArray.new clientQueueLen
  clientsInGame := ClientArray.new (gameCount * 2)
  clients := fun _ => none
  nextClient := 0
  toSendMsg := fun _ => []

/-! ### Primitive changes -/

def setSession (srv : Server) (s : SessionId) (session : Session) : Server :=
  { srv with sessions := Function.update srv.sessions s session }

def setGameState (srv : Server) (s : SessionId) (state : GameState) : Server :=
  srv.setSession s { srv.sessions s with state := state }

def sendMsg (srv : Server) (client : ClientId) (msg : Message) : Except Fault Server :=
  match srv.clients client with
  | none => .error .deadClient
  | some _ => .ok { srv with
      toSendMsg := Function.update srv.toSendMsg client (srv.toSendMsg client ++ [msg]) }

/-- `players[i]->send_msg(new ..)`, unchecked as in the source. -/
def sendToPlayer (srv : Server) (s : SessionId) (i : PlayerIdx) (body : Body) :
    Except Fault Server :=
  match (srv.sessions s).players i with
  | none => .error .nullSlot
  | some player => srv.sendMsg player (Message.new body)

def addTimeoutHandler (srv : Server) (kind : TimeoutKind) (s : SessionId) (sec : Int) : Server :=
  { srv with
    timeoutHandlers := srv.timeoutHandlers ++ [⟨srv.nextHandler, kind, s, ⟨sec, 0⟩⟩]
    nextHandler := srv.nextHandler + 1 }

def setTimer (srv : Server) (id : HandlerId) (timer : TimeoutHandler) : Server :=
  { srv with timeoutHandlers := srv.timeoutHandlers.map fun h =>
      if h.id = id then { h with timer := timer } else h }

def stopTimeout (srv : Server) (id : HandlerId) : Except Fault Server :=
  match srv.timeoutHandlers.find? (fun h => h.id = id) with
  | none => .error .danglingTimeout
  | some h => .ok (srv.setTimer id h.timer.stop)

/-! ### Messages to the players of a session -/

/-- One turn of the loop of `send_for_all`: the player gets his own copy. -/
def sendCopy (srv : Server) (s : SessionId) (i : PlayerIdx) (msg : Message) :
    Except Fault Server :=
  match (srv.sessions s).players i with
  | none => .ok srv
  | some player =>
      match createInstance msg.getData with
      | none => .ok srv
      | some copy => srv.sendMsg player copy

def sendForAll (srv : Server) (s : SessionId) (msg : Message) : Except Fault Server := do
  let srv ← srv.sendCopy s 0 msg
  srv.sendCopy s 1 msg

/-- One turn of the loop of `send_game_state_for_all`. -/
def sendGameState (srv : Server) (s : SessionId) (i : PlayerIdx) : Except Fault Server :=
  match (srv.sessions s).players i with
  | none => .ok srv
  | some player => srv.sendMsg player (Message.new (.gameState (srv.sessions s).state.code))

def sendGameStateForAll (srv : Server) (s : SessionId) : Except Fault Server := do
  let srv ← srv.sendGameState s 0
  srv.sendGameState s 1

/-! ### Leaving -/

/-- The loop returns at the slot it frees, so the state is sent only if the
player was in no slot. -/
def disconnectPlayer (srv : Server) (s : SessionId) (player : ClientId) : Except Fault Server :=
  match (srv.sessions s).getPlayerIndex player with
  | some i => .ok (srv.setSession s ((srv.sessions s).freeSlot i))
  | none => srv.sendGameStateForAll s

def disconnectFromGameSession (srv : Server) (client : ClientId) : Except Fault Server :=
  match srv.clients client with
  | none => .error .deadClient
  | some ⟨none⟩ => .ok srv
  | some ⟨some s⟩ => do
      let srv ← srv.disconnectPlayer s client
      .ok { srv with clients := Function.update srv.clients client (some ⟨none⟩) }

def disconnectClient (srv : Server) (client : ClientId) : Except Fault Server := do
  let srv ← srv.disconnectFromGameSession client
  .ok { srv with
    clientsQueue := srv.clientsQueue.remove client
    clientsInGame := srv.clientsInGame.remove client
    clients := Function.update srv.clients client none
    toSendMsg := Function.update srv.toSendMsg client [] }

/-! ### The phases of a game -/

def startPreparation (srv : Server) (s : SessionId) (now : Int64) : Except Fault Server :=
  if (srv.sessions s).state ≠ .waitPreparation then .ok srv
  else do
    let srv := srv.setGameState s .preparation
    let endTime := now + Int64.ofInt preparationDuration
    let srv ← srv.sendForAll s (Message.new (.startFieldReq endTime))
    .ok (srv.addTimeoutHandler .preparation s preparationDuration)

def stopPreparation (srv : Server) (s : SessionId) : Except Fault Server :=
  if (srv.sessions s).state ≠ .preparation then .ok srv
  else do
    let srv ← srv.sendForAll s (Message.new .stopPreparation)
    let srv := srv.setGameState s .waitStart
    let srv := srv.addTimeoutHandler .checkStartFields s waitDuration
    srv.sendGameStateForAll s

def sendStartFieldsTo (srv : Server) (s : SessionId) (i : PlayerIdx) : Except Fault Server := do
  let ownField := (srv.sessions s).fields i
  let enemyField := ((srv.sessions s).fields (getEnemyIdx i)).getForEnemy
  let srv ← srv.sendToPlayer s i (.gameField ownField true)
  srv.sendToPlayer s i (.gameField enemyField false)

def sendStartFields (srv : Server) (s : SessionId) : Except Fault Server :=
  if (srv.sessions s).state ≠ .waitStart then .ok srv
  else do
    let srv ← srv.sendStartFieldsTo s 0
    srv.sendStartFieldsTo s 1

def checkStartField (srv : Server) (s : SessionId) (i : PlayerIdx) : Except Fault Server :=
  match (srv.sessions s).players i with
  | none => .ok srv
  | some player =>
      if ((srv.sessions s).fields i).isValidStartField then .ok srv
      else srv.disconnectClient player

def checkStartFields (srv : Server) (s : SessionId) : Except Fault Server := do
  let srv ← srv.checkStartField s 0
  let srv ← srv.checkStartField s 1
  if (srv.sessions s).getPlayersCount = 2 then do
    let srv ← srv.sendStartFields s
    .ok (srv.addTimeoutHandler .gameStart s waitDuration)
  else if (srv.sessions s).getPlayersCount = 1 then
    (srv.setGameState s .waitPlayer).sendGameStateForAll s
  else .ok srv

def startNewTurn (srv : Server) (s : SessionId) (now : Int64) : Except Fault Server :=
  if (srv.sessions s).state ≠ .waitStart ∧ (srv.sessions s).state ≠ .processTurn then .ok srv
  else do
    let srv := srv.setGameState s .gameTurn
    let endTime := now + Int64.ofInt turnDuration
    let srv ← srv.sendToPlayer s (srv.sessions s).curTurnPlayerIdx (.startTurn endTime true)
    let srv ← srv.sendToPlayer s (srv.sessions s).enemyIdx (.startTurn endTime false)
    let timeout := srv.nextHandler
    let srv := srv.addTimeoutHandler .gameTurn s turnDuration
    .ok (srv.setSession s { srv.sessions s with turnTimeout := some timeout })

/-- The first number of `::rand()` chooses who begins. -/
def startGame (srv : Server) (s : SessionId) (now : Int64) (draws : List Nat) :
    Except Fault Server :=
  if (srv.sessions s).state ≠ .waitStart then .ok srv
  else
    match draws with
    | [] => .error .drawsExhausted
    | raw :: _ =>
        let first : PlayerIdx := if rand raw 2 = 0 then 0 else 1
        (srv.setSession s { srv.sessions s with curTurnPlayerIdx := first }).startNewTurn s now

def endTurn (srv : Server) (s : SessionId) : Except Fault Server :=
  if (srv.sessions s).state ≠ .gameTurn then .ok srv
  else do
    let srv := srv.setGameState s .processTurn
    let srv ← srv.sendToPlayer s (srv.sessions s).curTurnPlayerIdx (.stopTurn true)
    let srv ← srv.sendToPlayer s (srv.sessions s).enemyIdx (.stopTurn false)
    let srv := srv.addTimeoutHandler .changeTurn s waitDuration
    match (srv.sessions s).turnTimeout with
    | none => .ok srv
    | some timeout => do
        let srv ← srv.stopTimeout timeout
        .ok (srv.setSession s { srv.sessions s with turnTimeout := none })

def sendFields (srv : Server) (s : SessionId) : Except Fault Server := do
  let enemyField := (srv.sessions s).fields (srv.sessions s).enemyIdx
  let srv ← srv.sendToPlayer s (srv.sessions s).curTurnPlayerIdx
    (.gameField enemyField.getForEnemy false)
  srv.sendToPlayer s (srv.sessions s).enemyIdx (.gameField enemyField true)

def sendGameResult (srv : Server) (s : SessionId) : Except Fault Server := do
  let srv ← srv.sendToPlayer s (srv.sessions s).curTurnPlayerIdx
    (.gameState GameState.winGame.code)
  srv.sendToPlayer s (srv.sessions s).enemyIdx (.gameState GameState.loseGame.code)

def changeTurnPlayer (srv : Server) (s : SessionId) (now : Int64) (draws : List Nat) :
    Except Fault Server :=
  if (srv.sessions s).state ≠ .processTurn then .ok srv
  else
    match (srv.sessions s).registerShot draws with
    | none => .error .drawsExhausted
    | some (shotRes, session) => do
        let srv ← (srv.setSession s session).sendFields s
        if (srv.sessions s).isGameOver then do
          let srv ← srv.sendGameResult s
          .ok (srv.addTimeoutHandler .endGame s waitDuration)
        else if shotRes ≠ .damaged then
          (srv.setSession s (srv.sessions s).changeCurTurnPlayerIdx).startNewTurn s now
        else srv.startNewTurn s now

def endGameFor (srv : Server) (s : SessionId) (i : PlayerIdx) : Except Fault Server :=
  match (srv.sessions s).players i with
  | none => .ok srv
  | some player => srv.disconnectClient player

def endGame (srv : Server) (s : SessionId) : Except Fault Server := do
  let srv ← srv.endGameFor s 0
  srv.endGameFor s 1

def timeoutEvent (srv : Server) (kind : TimeoutKind) (s : SessionId) (now : Int64)
    (draws : List Nat) : Except Fault Server :=
  match kind with
  | .preparation => srv.stopPreparation s
  | .checkStartFields => srv.checkStartFields s
  | .gameStart => srv.startGame s now draws
  | .gameTurn => srv.endTurn s
  | .changeTurn => srv.changeTurnPlayer s now draws
  | .endGame => srv.endGame s

/-! ### Joining -/

/-- `none` is the answer `false`. -/
def setGameSession (srv : Server) (player : ClientId) (s : SessionId) : Option Server :=
  match srv.clients player with
  | some ⟨none⟩ =>
      match (srv.sessions s).setPlayer player with
      | none => none
      | some session => some { srv.setSession s session with
          clients := Function.update srv.clients player (some ⟨some s⟩) }
  | _ => none

/-- `_change_client_queue` as it is called, into the game. -/
def changeClientQueue (srv : Server) (player : ClientId) : Bool × Server :=
  match srv.clientsInGame.add player with
  | none => (false, srv)
  | some inGame => (true, { srv with
      clientsInGame := inGame, clientsQueue := srv.clientsQueue.remove player })

/-- The loop over the sessions of `connect_player_to_game`: the first one that
takes the player. -/
def findSession (srv : Server) (player : ClientId) : Option SessionId :=
  (List.range srv.sessionCount).find? fun s => (srv.setGameSession player s).isSome

def connectPlayerToGame (srv : Server) (player : ClientId) : Bool × Server :=
  match srv.findSession player with
  | some s => ((srv.setGameSession player s).getD srv).changeClientQueue player
  | none =>
      if srv.sessionCount = gameCount then (false, srv)
      else
        -- No session is vacant: a new one is opened and its first slot taken.
        let s := srv.sessionCount
        let srv := { srv.setSession s Session.new with sessionCount := s + 1 }
        ((srv.setGameSession player s).getD srv).changeClientQueue player

/-- `_accept_new_connection` when `accept` gives a descriptor. -/
def acceptNewConnection (srv : Server) : Server :=
  if srv.clientsQueue.isFull then srv
  else
    let client := srv.nextClient
    { srv with
      clientsQueue := (srv.clientsQueue.add client).getD srv.clientsQueue
      clients := Function.update srv.clients client (some ⟨none⟩)
      nextClient := client + 1 }

/-! ### Client messages (server/client_data.cpp) -/

def gameSessionOf (srv : Server) (client : ClientId) : Option SessionId :=
  (srv.clients client).bind Client.gameSession

def textBytes (text : String) : List UInt8 := text.toList.map fun c => UInt8.ofNat c.toNat

def errorMsg (text : String) : Message := Message.new (.error (TextBuf.ofText (textBytes text)))

def processGameSessionReqMsg (srv : Server) (client : ClientId) (now : Int64) :
    Except Fault Server :=
  let joined : Bool × Server :=
    match srv.gameSessionOf client with
    | some _ => (true, srv)
    | none => srv.connectPlayerToGame client
  let srv := joined.2
  match joined.1, srv.gameSessionOf client with
  | true, some s =>
      if (srv.sessions s).state = .waitPreparation then srv.startPreparation s now
      else srv.sendMsg client (Message.new (.gameState (srv.sessions s).state.code))
  | true, none => .error .nullSlot
  | false, _ => srv.sendMsg client (Message.new (.gameState GameState.noVacantGame.code))

def processGameFieldMsg (srv : Server) (client : ClientId) (id : Int64) (field : GameField) :
    Except Fault Server :=
  match srv.gameSessionOf client with
  | none => srv.sendMsg client (errorMsg "You are not in the game")
  | some s =>
      if !field.isValidStartField then
        srv.sendMsg client (errorMsg "Invalid game field. Correct it!")
      else
        match (srv.sessions s).setField client field with
        -- This receipt comes besides the one at the end of `process_msg`.
        | some session => (srv.setSession s session).sendMsg client (Message.new (.receipt id))
        | none => srv.sendMsg client (errorMsg "Can't set the game field")

def processGameMoveMsg (srv : Server) (client : ClientId) (point : Point) : Except Fault Server :=
  match srv.gameSessionOf client with
  | none => srv.sendMsg client (errorMsg "You are not in the game")
  | some s =>
      if (srv.sessions s).state = .gameTurn ∨ (srv.sessions s).state = .processTurn then
        match (srv.sessions s).setLastShot point client with
        -- `end_turn` returns at once when the turn has already ended.
        | some session => (srv.setSession s session).endTurn s
        | none => .ok srv
      else .ok srv

/-- One message of `process_msg`. A receipt only reaches the delivery control of
the client; the types the server does not support are only acknowledged. -/
def processMsg (srv : Server) (client : ClientId) (msg : Message) (now : Int64) :
    Except Fault Server := do
  let srv ←
    match msg.body with
    | .gameSessionReq => srv.processGameSessionReqMsg client now
    | .gameField field _ => srv.processGameFieldMsg client msg.id field
    | .gameMove x y => srv.processGameMoveMsg client ⟨x.toInt, y.toInt⟩
    | _ => .ok srv
  if msg.type ≠ .receipt then srv.sendMsg client (Message.new (.receipt msg.id)) else .ok srv

/-! ### Events -/

/-- What can happen to the server. The timer event is one turn of the loop of
`_process_timeouts`, for any pending handler and any passed time. `now` is what
`time` returns and `draws` what `::rand()` will return. -/
inductive Event where
  | accept
  | message (client : ClientId) (msg : Message) (now : Int64)
  | broken (client : ClientId)
  | timer (handler : HandlerId) (sec usec : Int) (now : Int64) (draws : List Nat)

/-- `read_msg` leaves the session when the connection is broken, and
`_process_fd_actions` then disconnects the client. -/
def connBroken (srv : Server) (client : ClientId) : Except Fault Server := do
  let srv ← srv.disconnectFromGameSession client
  srv.disconnectClient client

def dropElapsed (srv : Server) (id : HandlerId) : Server :=
  { srv with timeoutHandlers := srv.timeoutHandlers.filter fun h => !(h.id = id && h.elapsed) }

def processTimeout (srv : Server) (handler : Handler) (sec usec : Int) (now : Int64)
    (draws : List Nat) : Except Fault Server := do
  let processed := handler.timer.process sec usec
  let srv := srv.setTimer handler.id processed.2
  let srv ←
    if processed.1 then srv.timeoutEvent handler.kind handler.session now draws else .ok srv
  .ok (srv.dropElapsed handler.id)

def step (srv : Server) : Event → Except Fault Server
  | .accept => .ok srv.acceptNewConnection
  | .message client msg now =>
      if (srv.clients client).isSome then srv.processMsg client msg now else .error .notEnabled
  | .broken client =>
      if (srv.clients client).isSome then srv.connBroken client else .error .notEnabled
  | .timer id sec usec now draws =>
      match srv.timeoutHandlers.find? (fun h => h.id = id) with
      | none => .error .notEnabled
      | some handler => srv.processTimeout handler sec usec now draws

abbrev run : Server → List Event → Except Fault Server := Runs.run step

def Reachable (srv : Server) : Prop := ∃ es, run init es = .ok srv

end Server
end Battleship
