import Battleship.Server

/-! The game logic writes to the queues of the clients and never reads them: servers
that differ in their queues alone go on alike. -/
namespace Battleship

open Runs

namespace Server

def mute (srv : Server) : Server := { srv with toSendMsg := fun _ => [] }

theorem mute_eq {srv t : Server} (same : srv.mute = t.mute) :
    ∃ queues, t = { srv with toSendMsg := queues } := by
  refine ⟨t.toSendMsg, ?_⟩
  have := congrArg (fun srv : Server => { srv with toSendMsg := t.toSendMsg }) same
  exact this.symm

variable (s : SessionId) (i : PlayerIdx) (c : ClientId)

theorem sendMsg_blind (msg : Message) : Blind mute fun srv => srv.sendMsg c msg := by
  intro srv _ same
  obtain ⟨queues, rfl⟩ := mute_eq same
  unfold sendMsg
  dsimp only
  split <;> rfl

theorem sendToPlayer_blind (body : Body) : Blind mute fun srv => srv.sendToPlayer s i body := by
  intro srv _ same
  obtain ⟨queues, rfl⟩ := mute_eq same
  unfold sendToPlayer
  dsimp only
  split
  · rfl
  · exact sendMsg_blind _ _ _ _ rfl

theorem sendFrom_blind (player : Session → PlayerIdx) (body : Body) :
    Blind mute fun srv => srv.sendToPlayer s (player (srv.sessions s)) body := by
  intro srv _ same
  obtain ⟨queues, rfl⟩ := mute_eq same
  exact sendToPlayer_blind s _ _ _ _ rfl

theorem sendCopy_blind (msg : Message) : Blind mute fun srv => srv.sendCopy s i msg := by
  intro srv _ same
  obtain ⟨queues, rfl⟩ := mute_eq same
  unfold sendCopy
  dsimp only
  split
  · rfl
  · split
    · rfl
    · exact sendMsg_blind _ _ _ _ rfl

theorem sendForAll_blind (msg : Message) : Blind mute fun srv => srv.sendForAll s msg :=
  (sendCopy_blind s 0 msg).bind (sendCopy_blind s 1 msg)

theorem sendGameState_blind : Blind mute fun srv => srv.sendGameState s i := by
  intro srv _ same
  obtain ⟨queues, rfl⟩ := mute_eq same
  unfold sendGameState
  dsimp only
  split
  · rfl
  · exact sendMsg_blind _ _ _ _ rfl

theorem sendGameStateForAll_blind : Blind mute fun srv => srv.sendGameStateForAll s :=
  (sendGameState_blind s 0).bind (sendGameState_blind s 1)

theorem change_blind {f : Server → Server} (commutes : ∀ srv, (f srv).mute = (f srv.mute).mute) :
    Blind mute fun srv => (.ok (f srv) : Except Fault Server) :=
  Blind.pure fun srv t same => by rw [commutes, same, ← commutes]

theorem disconnectPlayer_blind : Blind mute fun srv => srv.disconnectPlayer s c := by
  intro srv _ same
  obtain ⟨queues, rfl⟩ := mute_eq same
  unfold disconnectPlayer
  dsimp only
  split
  · rfl
  · exact sendGameStateForAll_blind s _ _ rfl

theorem disconnectFromGameSession_blind :
    Blind mute fun srv => srv.disconnectFromGameSession c := by
  intro srv _ same
  obtain ⟨queues, rfl⟩ := mute_eq same
  unfold disconnectFromGameSession
  dsimp only
  split
  · rfl
  · rfl
  · rename_i s _
    exact ((disconnectPlayer_blind s c).bind (change_blind fun _ => rfl)) _ _ rfl

theorem disconnectClient_blind : Blind mute fun srv => srv.disconnectClient c :=
  (disconnectFromGameSession_blind c).bind (change_blind fun _ => rfl)

theorem startPreparation_blind (now : Int64) :
    Blind mute fun srv => srv.startPreparation s now := by
  intro srv _ same
  obtain ⟨queues, rfl⟩ := mute_eq same
  unfold startPreparation
  dsimp only
  split
  · rfl
  · exact ((sendForAll_blind s _).bind (change_blind fun _ => rfl)) _ _ rfl

theorem stopPreparation_blind : Blind mute fun srv => srv.stopPreparation s := by
  intro srv _ same
  obtain ⟨queues, rfl⟩ := mute_eq same
  have wait : Blind mute fun srv : Server => ((srv.setGameState s .waitStart).addTimeoutHandler
      .checkStartFields s waitDuration).sendGameStateForAll s := by
    intro srv _ same
    obtain ⟨queues, rfl⟩ := mute_eq same
    exact sendGameStateForAll_blind s _ _ rfl
  unfold stopPreparation
  dsimp only
  split
  · rfl
  · exact ((sendForAll_blind s _).bind wait) _ _ rfl

theorem sendStartFieldsTo_blind : Blind mute fun srv => srv.sendStartFieldsTo s i := by
  intro srv _ same
  obtain ⟨queues, rfl⟩ := mute_eq same
  exact ((sendToPlayer_blind s i _).bind (sendToPlayer_blind s i _)) _ _ rfl

theorem sendStartFields_blind : Blind mute fun srv => srv.sendStartFields s := by
  intro srv _ same
  obtain ⟨queues, rfl⟩ := mute_eq same
  unfold sendStartFields
  dsimp only
  split
  · rfl
  · exact ((sendStartFieldsTo_blind s 0).bind (sendStartFieldsTo_blind s 1)) _ _ rfl

theorem checkStartField_blind : Blind mute fun srv => srv.checkStartField s i := by
  intro srv _ same
  obtain ⟨queues, rfl⟩ := mute_eq same
  unfold checkStartField
  dsimp only
  split
  · rfl
  · split
    · rfl
    · exact disconnectClient_blind _ _ _ rfl

theorem checkStartFields_blind : Blind mute fun srv => srv.checkStartFields s := by
  refine (checkStartField_blind s 0).bind ((checkStartField_blind s 1).bind ?_)
  intro srv _ same
  obtain ⟨queues, rfl⟩ := mute_eq same
  dsimp only
  split
  · exact ((sendStartFields_blind s).bind (change_blind fun _ => rfl)) _ _ rfl
  · split
    · exact sendGameStateForAll_blind s _ _ rfl
    · rfl

theorem startNewTurn_blind (now : Int64) : Blind mute fun srv => srv.startNewTurn s now := by
  intro srv _ same
  obtain ⟨queues, rfl⟩ := mute_eq same
  unfold startNewTurn
  dsimp only
  split
  · rfl
  · exact ((sendFrom_blind s Session.curTurnPlayerIdx _).bind
      ((sendFrom_blind s Session.enemyIdx _).bind (change_blind fun _ => rfl))) _ _ rfl

theorem startGame_blind (now : Int64) (draws : List Nat) :
    Blind mute fun srv => srv.startGame s now draws := by
  intro srv _ same
  obtain ⟨queues, rfl⟩ := mute_eq same
  unfold startGame
  dsimp only
  split
  · rfl
  · split
    · rfl
    · exact startNewTurn_blind s now _ _ rfl

theorem stopTimeout_blind (id : HandlerId) : Blind mute fun srv => srv.stopTimeout id := by
  intro srv _ same
  obtain ⟨queues, rfl⟩ := mute_eq same
  unfold stopTimeout
  dsimp only
  split <;> rfl

/-- The end of `endTurn`: the countdown of the turn is stopped and forgotten. -/
def forgetTimeout (srv : Server) : Except Fault Server :=
  match (srv.sessions s).turnTimeout with
  | none => .ok srv
  | some timeout => do
      let srv ← srv.stopTimeout timeout
      .ok (srv.setSession s { srv.sessions s with turnTimeout := none })

theorem forgetTimeout_blind : Blind mute (forgetTimeout s) := by
  intro srv _ same
  obtain ⟨queues, rfl⟩ := mute_eq same
  unfold forgetTimeout
  dsimp only
  split
  · rfl
  · exact ((stopTimeout_blind _).bind (change_blind fun _ => rfl)) _ _ rfl

theorem endTurn_blind : Blind mute fun srv => srv.endTurn s := by
  intro srv _ same
  obtain ⟨queues, rfl⟩ := mute_eq same
  have register : Blind mute fun srv : Server =>
      (.ok (srv.addTimeoutHandler .changeTurn s waitDuration) : Except Fault Server) :=
    change_blind fun _ => rfl
  unfold endTurn
  dsimp only
  split
  · rfl
  · exact ((sendFrom_blind s Session.curTurnPlayerIdx _).bind
      ((sendFrom_blind s Session.enemyIdx _).bind (register.bind (forgetTimeout_blind s)))) _ _ rfl

theorem sendFields_blind : Blind mute fun srv => srv.sendFields s := by
  intro srv _ same
  obtain ⟨queues, rfl⟩ := mute_eq same
  unfold sendFields
  dsimp only
  exact ((sendFrom_blind s Session.curTurnPlayerIdx _).bind
    (sendFrom_blind s Session.enemyIdx _)) _ _ rfl

theorem sendGameResult_blind : Blind mute fun srv => srv.sendGameResult s :=
  (sendFrom_blind s Session.curTurnPlayerIdx _).bind (sendFrom_blind s Session.enemyIdx _)

theorem changeTurnPlayer_blind (now : Int64) (draws : List Nat) :
    Blind mute fun srv => srv.changeTurnPlayer s now draws := by
  intro srv _ same
  obtain ⟨queues, rfl⟩ := mute_eq same
  have goOn (shotRes : CellState) : Blind mute fun srv : Server =>
      if (srv.sessions s).isGameOver then do
        let srv ← srv.sendGameResult s
        .ok (srv.addTimeoutHandler .endGame s waitDuration)
      else if shotRes ≠ .damaged then
        (srv.setSession s (srv.sessions s).changeCurTurnPlayerIdx).startNewTurn s now
      else srv.startNewTurn s now := by
    intro srv _ same
    obtain ⟨queues, rfl⟩ := mute_eq same
    dsimp only
    split
    · exact ((sendGameResult_blind s).bind (change_blind fun _ => rfl)) _ _ rfl
    · split <;> exact startNewTurn_blind s now _ _ rfl
  unfold changeTurnPlayer
  dsimp only
  split
  · rfl
  · split
    · rfl
    · exact ((sendFields_blind s).bind (goOn _)) _ _ rfl

theorem endGameFor_blind : Blind mute fun srv => srv.endGameFor s i := by
  intro srv _ same
  obtain ⟨queues, rfl⟩ := mute_eq same
  unfold endGameFor
  dsimp only
  split
  · rfl
  · exact disconnectClient_blind _ _ _ rfl

theorem endGame_blind : Blind mute fun srv => srv.endGame s :=
  (endGameFor_blind s 0).bind (endGameFor_blind s 1)

theorem timeoutEvent_blind (kind : TimeoutKind) (now : Int64) (draws : List Nat) :
    Blind mute fun srv => srv.timeoutEvent kind s now draws := by
  cases kind with
  | preparation => exact stopPreparation_blind s
  | checkStartFields => exact checkStartFields_blind s
  | gameStart => exact startGame_blind s now draws
  | gameTurn => exact endTurn_blind s
  | changeTurn => exact changeTurnPlayer_blind s now draws
  | endGame => exact endGame_blind s

theorem setGameSession_muted (srv : Server) (queues : ClientId → List Message) :
    Server.setGameSession { srv with toSendMsg := queues } c s =
      (srv.setGameSession c s).map fun srv => { srv with toSendMsg := queues } := by
  unfold setGameSession
  dsimp only
  split
  · split <;> rfl
  · rfl

theorem changeClientQueue_muted (srv : Server) (queues : ClientId → List Message) :
    Server.changeClientQueue { srv with toSendMsg := queues } c =
      ((srv.changeClientQueue c).1, { (srv.changeClientQueue c).2 with toSendMsg := queues }) := by
  unfold changeClientQueue
  dsimp only
  split <;> rfl

theorem connectPlayerToGame_muted (srv : Server) (queues : ClientId → List Message) :
    Server.connectPlayerToGame { srv with toSendMsg := queues } c =
      ((srv.connectPlayerToGame c).1,
        { (srv.connectPlayerToGame c).2 with toSendMsg := queues }) := by
  have found : Server.findSession { srv with toSendMsg := queues } c = srv.findSession c := by
    simp [findSession, setGameSession_muted]
  have joined (srv : Server) (s : SessionId) :
      (Server.setGameSession { srv with toSendMsg := queues } c s).getD
          { srv with toSendMsg := queues } =
        { (srv.setGameSession c s).getD srv with toSendMsg := queues } := by
    rw [setGameSession_muted]
    cases srv.setGameSession c s <;> rfl
  unfold connectPlayerToGame
  rw [found]
  dsimp only
  split
  · rw [joined, changeClientQueue_muted]
  · split
    · rfl
    · have opened := joined { srv.setSession srv.sessionCount Session.new with
        sessionCount := srv.sessionCount + 1 } srv.sessionCount
      exact (congrArg (changeClientQueue · c) opened).trans (changeClientQueue_muted ..)

/-- The answer at the end of `process_game_session_req_msg`. -/
def answerRequest (now : Int64) (joined : Bool) (srv : Server) : Except Fault Server :=
  match joined, srv.gameSessionOf c with
  | true, some s =>
      if (srv.sessions s).state = .waitPreparation then srv.startPreparation s now
      else srv.sendMsg c (Message.new (.gameState (srv.sessions s).state.code))
  | true, none => .error .nullSlot
  | false, _ => srv.sendMsg c (Message.new (.gameState GameState.noVacantGame.code))

theorem answerRequest_blind (now : Int64) (joined : Bool) :
    Blind mute (answerRequest c now joined) := by
  intro srv _ same
  obtain ⟨queues, rfl⟩ := mute_eq same
  unfold answerRequest
  dsimp only [gameSessionOf]
  split
  · split
    · exact startPreparation_blind _ now _ _ rfl
    · exact sendMsg_blind _ _ _ _ rfl
  · rfl
  · exact sendMsg_blind _ _ _ _ rfl

theorem processGameSessionReqMsg_blind (now : Int64) :
    Blind mute fun srv => srv.processGameSessionReqMsg c now := by
  intro srv _ same
  obtain ⟨queues, rfl⟩ := mute_eq same
  unfold processGameSessionReqMsg
  dsimp only [gameSessionOf]
  cases (srv.clients c).bind Client.gameSession with
  | some s => exact answerRequest_blind c now true _ _ rfl
  | none =>
      simp only [connectPlayerToGame_muted]
      exact answerRequest_blind c now (srv.connectPlayerToGame c).1 (srv.connectPlayerToGame c).2
        { (srv.connectPlayerToGame c).2 with toSendMsg := queues } rfl

theorem processGameFieldMsg_blind (id : Int64) (field : GameField) :
    Blind mute fun srv => srv.processGameFieldMsg c id field := by
  intro srv _ same
  obtain ⟨queues, rfl⟩ := mute_eq same
  unfold processGameFieldMsg gameSessionOf
  dsimp only
  split
  · exact sendMsg_blind _ _ _ _ rfl
  · split
    · exact sendMsg_blind _ _ _ _ rfl
    · split <;> exact sendMsg_blind _ _ _ _ rfl

theorem processGameMoveMsg_blind (point : Point) :
    Blind mute fun srv => srv.processGameMoveMsg c point := by
  intro srv _ same
  obtain ⟨queues, rfl⟩ := mute_eq same
  unfold processGameMoveMsg gameSessionOf
  dsimp only
  split
  · exact sendMsg_blind _ _ _ _ rfl
  · split
    · split
      · exact endTurn_blind _ _ _ rfl
      · rfl
    · rfl

theorem processMsg_blind (msg : Message) (now : Int64) :
    Blind mute fun srv => srv.processMsg c msg now := by
  have answer : Blind mute fun srv : Server =>
      if msg.type ≠ .receipt then srv.sendMsg c (Message.new (.receipt msg.id)) else .ok srv := by
    split
    · exact sendMsg_blind c _
    · exact change_blind fun _ => rfl
  unfold processMsg
  cases msg.body with
  | gameSessionReq => exact (processGameSessionReqMsg_blind c now).bind answer
  | gameField field own => exact (processGameFieldMsg_blind c msg.id field).bind answer
  | gameMove x y => exact (processGameMoveMsg_blind c _).bind answer
  | _ => exact answer

theorem acceptNewConnection_muted (srv : Server) :
    srv.acceptNewConnection.mute = srv.mute.acceptNewConnection.mute := by
  unfold acceptNewConnection mute
  dsimp only
  split <;> rfl

theorem processTimeout_blind (handler : Handler) (sec usec : Int) (now : Int64)
    (draws : List Nat) : Blind mute fun srv => srv.processTimeout handler sec usec now draws := by
  intro srv _ same
  obtain ⟨queues, rfl⟩ := mute_eq same
  have drop : Blind mute fun srv : Server =>
      (.ok (srv.dropElapsed handler.id) : Except Fault Server) :=
    change_blind fun _ => rfl
  unfold processTimeout
  dsimp only
  split
  · exact ((timeoutEvent_blind _ _ now draws).bind drop) _ _ rfl
  · rfl

theorem step_blind (e : Event) : Blind mute fun srv => srv.step e := by
  cases e with
  | accept => exact change_blind acceptNewConnection_muted
  | message c msg now =>
      intro srv _ same
      obtain ⟨queues, rfl⟩ := mute_eq same
      simp only [step]
      split
      · exact processMsg_blind c msg now _ _ rfl
      · rfl
  | broken c =>
      intro srv _ same
      obtain ⟨queues, rfl⟩ := mute_eq same
      simp only [step]
      split
      · exact ((disconnectFromGameSession_blind c).bind (disconnectClient_blind c)) _ _ rfl
      · rfl
  | timer id sec usec now draws =>
      intro srv _ same
      obtain ⟨queues, rfl⟩ := mute_eq same
      simp only [step]
      split
      · rfl
      · exact processTimeout_blind _ sec usec now draws _ _ rfl

end Server
end Battleship
