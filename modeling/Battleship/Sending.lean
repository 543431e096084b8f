import Battleship.Crew

/-! What the operations of the server queue for the clients: messages that they have just
made themselves. Only the handlers of client messages make receipts; the queue of a client
that is deleted goes with it. -/
namespace Battleship.Server

open Runs

/-- Messages with `P` were appended to the queues, and clients may have been deleted. -/
structure Queues (P : Message → Prop) (srv srv' : Server) : Prop where
  gone : ∀ c, srv.clients c = none → srv'.clients c = none
  queued : ∀ c, srv'.clients c ≠ none →
    ∃ msgs, srv'.toSendMsg c = srv.toSendMsg c ++ msgs ∧ ∀ msg ∈ msgs, P msg
  empty : ∀ c, srv.clients c = none → srv.toSendMsg c = [] → srv'.toSendMsg c = []

section Relation
variable {P : Message → Prop} {srv srv' srv'' : Server}

theorem Queues.of_eq (clients : ∀ c, srv.clients c = none → srv'.clients c = none)
    (same : srv'.toSendMsg = srv.toSendMsg) : Queues P srv srv' :=
  ⟨clients, fun c _ => ⟨[], by rw [same, List.append_nil], nofun⟩, fun c _ empty => by rw [same, empty]⟩

theorem Queues.refl (srv : Server) : Queues P srv srv := .of_eq (fun _ dead => dead) rfl

theorem Queues.trans (first : Queues P srv srv') (second : Queues P srv' srv'') :
    Queues P srv srv'' := by
  constructor
  · exact fun c dead => second.gone c (first.gone c dead)
  · intro c alive
    obtain ⟨msgs', append', all'⟩ := second.queued c alive
    obtain ⟨msgs, append, all⟩ := first.queued c fun dead => alive (second.gone c dead)
    refine ⟨msgs ++ msgs', by rw [append', append, List.append_assoc], ?_⟩
    exact List.forall_mem_append.mpr ⟨all, all'⟩
  · exact fun c dead empty => second.empty c (first.gone c dead) (first.empty c dead empty)

theorem queues_push {c : ClientId} (alive : srv.clients c ≠ none) {msg : Message} (fits : P msg) :
    Queues P srv (srv.push c msg) := by
  constructor
  · exact fun _ dead => dead
  · intro c' _
    by_cases same : c' = c
    · subst same
      exact ⟨[msg], Function.update_self .., List.forall_mem_singleton.mpr fits⟩
    · exact ⟨[], (Function.update_of_ne same ..).trans (List.append_nil _).symm, nofun⟩
  · intro c' dead empty
    have other : c' ≠ c := by
      rintro rfl
      exact alive dead
    exact (Function.update_of_ne other ..).trans empty

end Relation

/-- The operation queues messages with `P`, unless it stops. -/
abbrev Sends (P : Message → Prop) (srv : Server) (x : Except Fault Server) : Prop :=
  Ends (fun _ => True) x (Queues P srv)

section Operations
variable {P : Message → Prop} {srv : Server}

theorem Sends.bind {x : Except Fault Server} {f : Server → Except Fault Server}
    (first : Sends P srv x) (next : ∀ srv', Sends P srv' (f srv')) : Sends P srv (x >>= f) :=
  Ends.bind first fun srv' queues => (next srv').mono fun _ queues' => queues.trans queues'

theorem Sends.after {srv' : Server} (queues : Queues P srv srv') {x : Except Fault Server}
    (sends : Sends P srv' x) : Sends P srv x :=
  sends.mono fun _ queues' => queues.trans queues'

theorem setSession_queues (s : SessionId) (session : Session) :
    Queues P srv (srv.setSession s session) := .of_eq (fun _ dead => dead) rfl

theorem setGameState_queues (s : SessionId) (state : GameState) :
    Queues P srv (srv.setGameState s state) := .of_eq (fun _ dead => dead) rfl

theorem addTimeoutHandler_queues (kind : TimeoutKind) (s : SessionId) (sec : Int) :
    Queues P srv (srv.addTimeoutHandler kind s sec) := .of_eq (fun _ dead => dead) rfl

theorem setTimer_queues (id : HandlerId) (timer : TimeoutHandler) :
    Queues P srv (srv.setTimer id timer) := .of_eq (fun _ dead => dead) rfl

theorem stopTimeout_queues (id : HandlerId) : Sends P srv (srv.stopTimeout id) := by
  unfold stopTimeout
  split
  · trivial
  · exact setTimer_queues id _

theorem sendMsg_queues (c : ClientId) {msg : Message} (fits : P msg) :
    Sends P srv (srv.sendMsg c msg) := by
  by_cases alive : srv.clients c = none
  · simp only [sendMsg, alive]
    trivial
  · rw [sendMsg_alive alive]
    exact queues_push alive fits

variable (new : ∀ body : Body, body.type ≠ .receipt → P (Message.new body))
include new

theorem sendToPlayer_queues (s : SessionId) (i : PlayerIdx) {body : Body}
    (kind : body.type ≠ .receipt) : Sends P srv (srv.sendToPlayer s i body) := by
  unfold sendToPlayer
  split
  · trivial
  · exact sendMsg_queues _ (new body kind)

theorem sendCopy_queues (s : SessionId) (i : PlayerIdx) {body : Body}
    (kind : body.type ≠ .receipt) : Sends P srv (srv.sendCopy s i (Message.new body)) := by
  unfold sendCopy
  split
  · exact Queues.refl srv
  · simp only [createInstance_getData]
    exact sendMsg_queues _ (new body kind)

theorem sendForAll_queues (s : SessionId) {body : Body} (kind : body.type ≠ .receipt) :
    Sends P srv (srv.sendForAll s (Message.new body)) :=
  (sendCopy_queues new s 0 kind).bind fun _ => sendCopy_queues new s 1 kind

theorem sendGameState_queues (s : SessionId) (i : PlayerIdx) :
    Sends P srv (srv.sendGameState s i) := by
  unfold sendGameState
  split
  · exact Queues.refl srv
  · exact sendMsg_queues _ (new _ (by simp [Body.type]))

theorem sendGameStateForAll_queues (s : SessionId) : Sends P srv (srv.sendGameStateForAll s) :=
  (sendGameState_queues new s 0).bind fun _ => sendGameState_queues new s 1

theorem disconnectPlayer_queues (s : SessionId) (player : ClientId) :
    Sends P srv (srv.disconnectPlayer s player) := by
  unfold disconnectPlayer
  split
  · exact setSession_queues s _
  · exact sendGameStateForAll_queues new s

theorem disconnectFromGameSession_queues (c : ClientId) :
    Sends P srv (srv.disconnectFromGameSession c) := by
  have left (s : SessionId) : Ends (fun _ => True) (srv.disconnectPlayer s c) fun srv' =>
      Queues P srv srv' ∧ srv'.clients = srv.clients := by
    have calm := srv.disconnectPlayer_calm s c
    have sends : Sends P srv (srv.disconnectPlayer s c) := disconnectPlayer_queues new s c
    cases done : srv.disconnectPlayer s c with
    | error fault => trivial
    | ok srv' => exact ⟨sends.elim done, congrArg Crew.clients (calm.elim done).crew⟩
  unfold disconnectFromGameSession
  split
  · trivial
  · exact Queues.refl srv
  · rename_i s member
    refine Ends.bind (left s) fun srv' ⟨queues, clients⟩ => queues.trans (.of_eq (fun c' dead => ?_) rfl)
    have other : c' ≠ c := by
      rintro rfl
      rw [clients, member] at dead
      cases dead
    exact (Function.update_of_ne other ..).trans dead

theorem disconnectClient_queues (c : ClientId) : Sends P srv (srv.disconnectClient c) := by
  refine (disconnectFromGameSession_queues new c).bind fun srv' => ?_
  constructor
  · intro c' dead
    by_cases same : c' = c
    · exact same ▸ Function.update_self ..
    · exact (Function.update_of_ne same ..).trans dead
  · intro c' alive
    have other : c' ≠ c := by
      rintro rfl
      exact alive (Function.update_self ..)
    exact ⟨[], (Function.update_of_ne other ..).trans (List.append_nil _).symm, nofun⟩
  · intro c' _ empty
    by_cases same : c' = c
    · exact same ▸ Function.update_self ..
    · exact (Function.update_of_ne same ..).trans empty

theorem connBroken_queues (c : ClientId) : Sends P srv (srv.connBroken c) :=
  (disconnectFromGameSession_queues new c).bind fun _ => disconnectClient_queues new c

theorem startPreparation_queues (s : SessionId) (now : Int64) :
    Sends P srv (srv.startPreparation s now) := by
  unfold startPreparation
  split
  · exact Queues.refl srv
  · refine Sends.after (setGameState_queues s _) ((sendForAll_queues new s ?_).bind fun srv' => ?_)
    · simp [Body.type]
    · exact addTimeoutHandler_queues .preparation s _

theorem stopPreparation_queues (s : SessionId) : Sends P srv (srv.stopPreparation s) := by
  unfold stopPreparation
  split
  · exact Queues.refl srv
  · refine (sendForAll_queues new s (by simp [Body.type])).bind fun srv' => ?_
    refine Sends.after (setGameState_queues s .waitStart) ?_
    exact Sends.after (addTimeoutHandler_queues .checkStartFields s _)
      (sendGameStateForAll_queues new s)

theorem sendStartFieldsTo_queues (s : SessionId) (i : PlayerIdx) :
    Sends P srv (srv.sendStartFieldsTo s i) :=
  (sendToPlayer_queues new s i (by simp [Body.type])).bind fun _ =>
    sendToPlayer_queues new s i (by simp [Body.type])

theorem sendStartFields_queues (s : SessionId) : Sends P srv (srv.sendStartFields s) := by
  unfold sendStartFields
  split
  · exact Queues.refl srv
  · exact (sendStartFieldsTo_queues new s 0).bind fun _ => sendStartFieldsTo_queues new s 1

theorem checkStartField_queues (s : SessionId) (i : PlayerIdx) :
    Sends P srv (srv.checkStartField s i) := by
  unfold checkStartField
  split
  · exact Queues.refl srv
  · split
    · exact Queues.refl srv
    · exact disconnectClient_queues new _

theorem checkStartFields_queues (s : SessionId) : Sends P srv (srv.checkStartFields s) := by
  refine (checkStartField_queues new s 0).bind fun srv' => ?_
  refine (checkStartField_queues new s 1).bind fun srv'' => ?_
  split
  · refine (sendStartFields_queues new s).bind fun srv₃ => ?_
    exact addTimeoutHandler_queues .gameStart s _
  · split
    · exact Sends.after (setGameState_queues s _) (sendGameStateForAll_queues new s)
    · exact Queues.refl srv''

theorem startNewTurn_queues (s : SessionId) (now : Int64) :
    Sends P srv (srv.startNewTurn s now) := by
  unfold startNewTurn
  split
  · exact Queues.refl srv
  · refine Sends.after (setGameState_queues s _)
      ((sendToPlayer_queues new s _ (by simp [Body.type])).bind fun srv' => ?_)
    refine (sendToPlayer_queues new s _ (by simp [Body.type])).bind fun srv'' => ?_
    exact (addTimeoutHandler_queues .gameTurn s _).trans (setSession_queues s _)

theorem startGame_queues (s : SessionId) (now : Int64) (draws : List Nat) :
    Sends P srv (srv.startGame s now draws) := by
  unfold startGame
  split
  · exact Queues.refl srv
  · split
    · trivial
    · exact Sends.after (setSession_queues s _) (startNewTurn_queues new s now)

theorem endTurn_queues (s : SessionId) : Sends P srv (srv.endTurn s) := by
  unfold endTurn
  split
  · exact Queues.refl srv
  · refine Sends.after (setGameState_queues s _)
      ((sendToPlayer_queues new s _ (by simp [Body.type])).bind fun srv' => ?_)
    refine (sendToPlayer_queues new s _ (by simp [Body.type])).bind fun srv'' => ?_
    refine Sends.after (@addTimeoutHandler_queues P srv'' .changeTurn s waitDuration) ?_
    dsimp only
    split
    · exact Queues.refl _
    · exact (stopTimeout_queues _).bind fun srv₃ => setSession_queues s _

theorem sendFields_queues (s : SessionId) : Sends P srv (srv.sendFields s) :=
  (sendToPlayer_queues new s _ (by simp [Body.type])).bind fun _ =>
    sendToPlayer_queues new s _ (by simp [Body.type])

theorem sendGameResult_queues (s : SessionId) : Sends P srv (srv.sendGameResult s) :=
  (sendToPlayer_queues new s _ (by simp [Body.type])).bind fun _ =>
    sendToPlayer_queues new s _ (by simp [Body.type])

theorem changeTurnPlayer_queues (s : SessionId) (now : Int64) (draws : List Nat) :
    Sends P srv (srv.changeTurnPlayer s now draws) := by
  unfold changeTurnPlayer
  split
  · exact Queues.refl srv
  · split
    · trivial
    · refine Sends.after (setSession_queues s _) ((sendFields_queues new s).bind fun srv' => ?_)
      split
      · exact (sendGameResult_queues new s).bind fun _ => addTimeoutHandler_queues .endGame s _
      · split
        · exact Sends.after (setSession_queues s _) (startNewTurn_queues new s now)
        · exact startNewTurn_queues new s now

theorem endGameFor_queues (s : SessionId) (i : PlayerIdx) : Sends P srv (srv.endGameFor s i) := by
  unfold endGameFor
  split
  · exact Queues.refl srv
  · exact disconnectClient_queues new _

theorem endGame_queues (s : SessionId) : Sends P srv (srv.endGame s) :=
  (endGameFor_queues new s 0).bind fun _ => endGameFor_queues new s 1

theorem timeoutEvent_queues (kind : TimeoutKind) (s : SessionId) (now : Int64) (draws : List Nat) :
    Sends P srv (srv.timeoutEvent kind s now draws) := by
  cases kind with
  | preparation => exact stopPreparation_queues new s
  | checkStartFields => exact checkStartFields_queues new s
  | gameStart => exact startGame_queues new s now draws
  | gameTurn => exact endTurn_queues new s
  | changeTurn => exact changeTurnPlayer_queues new s now draws
  | endGame => exact endGame_queues new s

theorem processTimeout_queues (h : Handler) (sec usec : Int) (now : Int64) (draws : List Nat) :
    Sends P srv (srv.processTimeout h sec usec now draws) := by
  have drop (srv' : Server) : Sends P srv' (.ok (srv'.dropElapsed h.id)) :=
    Queues.of_eq (fun _ dead => dead) rfl
  unfold processTimeout
  refine Sends.after (setTimer_queues h.id (h.timer.process sec usec).2) ?_
  dsimp only
  split
  · exact (timeoutEvent_queues new h.kind h.session now draws).bind drop
  · exact drop _

end Operations

section Handlers
variable {P : Message → Prop} {srv : Server}

theorem setGameSession_queues {srv₁ : Server} {c : ClientId} {s : SessionId}
    (joined : srv.setGameSession c s = some srv₁) : Queues P srv srv₁ := by
  obtain ⟨alone, session, _, rfl⟩ := setGameSession_spec joined
  refine .of_eq (fun c' dead => ?_) rfl
  have other : c' ≠ c := by
    rintro rfl
    rw [alone] at dead
    cases dead
  exact (Function.update_of_ne other ..).trans dead

theorem changeClientQueue_queues (c : ClientId) : Queues P srv (srv.changeClientQueue c).2 := by
  unfold changeClientQueue
  split <;> exact .of_eq (fun _ dead => dead) rfl

theorem connectPlayerToGame_queues (c : ClientId) :
    Queues P srv (srv.connectPlayerToGame c).2 := by
  have seated (srv' : Server) (s : SessionId) :
      Queues P srv' ((srv'.setGameSession c s).getD srv') := by
    cases joined : srv'.setGameSession c s with
    | none => exact Queues.refl srv'
    | some srv₁ => exact setGameSession_queues joined
  unfold connectPlayerToGame
  split
  · exact (seated srv _).trans (changeClientQueue_queues c)
  · split
    · exact Queues.refl srv
    · have opened : Queues P srv srv.opened := .of_eq (fun _ dead => dead) rfl
      exact opened.trans ((seated srv.opened _).trans (changeClientQueue_queues c))

variable (new : ∀ body : Body, body.type ≠ .receipt → P (Message.new body))
include new

theorem processGameSessionReqMsg_queues (c : ClientId) (now : Int64) :
    Sends P srv (srv.processGameSessionReqMsg c now) := by
  have answers (srv' : Server) (state : GameState) :
      Sends P srv' (srv'.sendMsg c (Message.new (.gameState state.code))) :=
    sendMsg_queues c (new _ (by simp [Body.type]))
  unfold processGameSessionReqMsg
  cases session : srv.gameSessionOf c with
  | some s =>
      simp only [session]
      split_ifs
      · exact startPreparation_queues new s now
      · exact answers srv _
  | none =>
      have connected : Queues P srv (srv.connectPlayerToGame c).2 := connectPlayerToGame_queues c
      rcases done : srv.connectPlayerToGame c with ⟨joined, srv₁⟩
      rw [done] at connected
      refine Sends.after connected ?_
      cases joined with
      | false => exact answers srv₁ _
      | true =>
          cases member : srv₁.gameSessionOf c with
          | none =>
              simp only [member]
              trivial
          | some s =>
              simp only [member]
              split_ifs
              · exact startPreparation_queues new s now
              · exact answers srv₁ _

theorem processGameMoveMsg_queues (c : ClientId) (point : Point) :
    Sends P srv (srv.processGameMoveMsg c point) := by
  unfold processGameMoveMsg
  split
  · exact sendMsg_queues c (new _ (by simp [Body.type]))
  · split
    · split
      · exact Sends.after (setSession_queues _ _) (endTurn_queues new _)
      · exact Queues.refl srv
    · exact Queues.refl srv

end Handlers

end Battleship.Server
