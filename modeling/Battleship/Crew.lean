import Battleship.ServerSteps

/-! What the operations of the server do to the clients and their arrays and to the
registered handlers. Most of them let the clients be and only register or stop
handlers; a few delete clients, and a session request may take its sender into the
game. -/
namespace Battleship

open Runs

structure Crew where
  clientsQueue : ClientArray
  clientsInGame : ClientArray
  clients : ClientId → Option Client
  nextClient : ClientId

namespace Crew

def gone (crew : Crew) (client : ClientId) : Crew :=
  { crew with
    clientsQueue := crew.clientsQueue.remove client
    clientsInGame := crew.clientsInGame.remove client
    clients := Function.update crew.clients client none }

def joined (crew : Crew) (client : ClientId) (s : SessionId) (inGame : ClientArray) : Crew :=
  { crew with
    clientsQueue := crew.clientsQueue.remove client
    clientsInGame := inGame
    clients := Function.update crew.clients client (some ⟨some s⟩) }

end Crew

def TimeoutKind.duration : TimeoutKind → Int
  | .preparation => preparationDuration
  | .gameTurn => turnDuration
  | .checkStartFields | .gameStart | .changeTurn | .endGame => waitDuration

theorem ClientArray.add_room {array : ClientArray} (room : ¬ array.isFull = true) (c : ClientId) :
    ∃ array', array.add c = some array' := by
  simp only [ClientArray.add_eq, Option.map_eq_some_iff]
  obtain ⟨slots, stored⟩ : ∃ slots, SlotTable.put array.clients c = some slots := by
    refine Option.ne_none_iff_exists'.mp fun full => room ?_
    exact List.all_eq_true.mpr (SlotTable.put_eq_none.mp full)
  exact ⟨_, slots, stored, rfl⟩

namespace Server

def crew (srv : Server) : Crew :=
  ⟨srv.clientsQueue, srv.clientsInGame, srv.clients, srv.nextClient⟩

structure Arms (srv srv' : Server) : Prop where
  next : srv.nextHandler ≤ srv'.nextHandler
  handlers : ∀ h' ∈ srv'.timeoutHandlers,
    (∃ h ∈ srv.timeoutHandlers, h'.id = h.id ∧ h'.kind = h.kind ∧
      (h'.timer = h.timer ∨ h'.timer = h.timer.stop)) ∨
    (srv.nextHandler ≤ h'.id ∧ h'.id < srv'.nextHandler ∧
      (h'.timer = ⟨h'.kind.duration, 0⟩ ∨ h'.elapsed = true))

theorem Arms.of_eq {srv srv' : Server} (next : srv'.nextHandler = srv.nextHandler)
    (handlers : srv'.timeoutHandlers = srv.timeoutHandlers) : srv.Arms srv' :=
  ⟨next.ge, fun h' member => .inl ⟨h', handlers ▸ member, rfl, rfl, .inl rfl⟩⟩

theorem Arms.trans {srv srv' srv'' : Server} (first : srv.Arms srv') (second : srv'.Arms srv'') :
    srv.Arms srv'' := by
  refine ⟨first.next.trans second.next, fun h'' member => ?_⟩
  rcases second.handlers h'' member with ⟨h', member', id, kind, timer⟩ | ⟨low, high, timer⟩
  · rcases first.handlers h' member' with ⟨h, old, id', kind', timer'⟩ | ⟨low, high, timer'⟩
    · refine .inl ⟨h, old, id.trans id', kind.trans kind', ?_⟩
      rcases timer with same | stopped
      · rwa [same]
      · exact .inr stopped
    · refine .inr ⟨by rw [id]; exact low, by rw [id]; exact lt_of_lt_of_le high second.next, ?_⟩
      rcases timer with same | stopped
      · rw [kind, same]
        refine timer'.imp_right fun done => ?_
        simpa [Handler.elapsed, same] using done
      · exact .inr (by simp [Handler.elapsed, stopped])
  · exact .inr ⟨first.next.trans low, high, timer⟩

structure Quiet (srv srv' : Server) : Prop where
  crew : srv'.crew = srv.crew
  arms : srv.Arms srv'

structure Leaves (srv srv' : Server) : Prop where
  crew : ∃ gone : List ClientId, srv'.crew = gone.foldl Crew.gone srv.crew
  arms : srv.Arms srv'

theorem Quiet.refl (srv : Server) : srv.Quiet srv := ⟨rfl, .of_eq rfl rfl⟩

theorem Quiet.trans {srv srv' srv'' : Server} (first : srv.Quiet srv') (second : srv'.Quiet srv'') :
    srv.Quiet srv'' :=
  ⟨second.crew.trans first.crew, first.arms.trans second.arms⟩

theorem Quiet.leaves {srv srv' : Server} (quiet : srv.Quiet srv') : srv.Leaves srv' :=
  ⟨⟨[], quiet.crew⟩, quiet.arms⟩

theorem Leaves.trans {srv srv' srv'' : Server} (first : srv.Leaves srv')
    (second : srv'.Leaves srv'') : srv.Leaves srv'' := by
  obtain ⟨gone, crew⟩ := first.crew
  obtain ⟨gone', crew'⟩ := second.crew
  refine ⟨⟨gone ++ gone', ?_⟩, first.arms.trans second.arms⟩
  rw [List.foldl_append, ← crew, crew']

def Crash (fault : Fault) : Prop :=
  fault = .nullSlot ∨ fault = .deadClient ∨ fault = .danglingTimeout

abbrev Comes (x : Except Fault Server) (post : Server → Prop) : Prop := Ends Crash x post

abbrev Calm (srv : Server) (x : Except Fault Server) : Prop := Comes x srv.Quiet

theorem Calm.bind {srv : Server} {x : Except Fault Server} {f : Server → Except Fault Server}
    (first : srv.Calm x) (next : ∀ srv' : Server, srv'.Calm (f srv')) : srv.Calm (x >>= f) :=
  Ends.bind first fun srv' quiet => (next srv').mono fun _ quiet' => quiet.trans quiet'

theorem Calm.after {srv srv' : Server} (quiet : srv.Quiet srv') {x : Except Fault Server}
    (calm : srv'.Calm x) : srv.Calm x :=
  calm.mono fun _ quiet' => quiet.trans quiet'

theorem setSession_quiet (srv : Server) (s : SessionId) (session : Session) :
    srv.Quiet (srv.setSession s session) := ⟨rfl, .of_eq rfl rfl⟩

theorem setGameState_quiet (srv : Server) (s : SessionId) (state : GameState) :
    srv.Quiet (srv.setGameState s state) := srv.setSession_quiet s _

theorem addTimeoutHandler_quiet (srv : Server) (kind : TimeoutKind) (s : SessionId) :
    srv.Quiet (srv.addTimeoutHandler kind s kind.duration) := by
  refine ⟨rfl, Nat.le_succ _, fun h' member => ?_⟩
  rcases List.mem_append.mp member with old | new
  · exact .inl ⟨h', old, rfl, rfl, .inl rfl⟩
  · obtain rfl := List.mem_singleton.mp new
    exact .inr ⟨le_rfl, Nat.lt_succ_self _, .inl rfl⟩

theorem stopTimeout_calm (srv : Server) (id : HandlerId) : srv.Calm (srv.stopTimeout id) := by
  unfold stopTimeout
  split
  · exact .inr (.inr rfl)
  · refine ⟨rfl, le_rfl, fun h' member => ?_⟩
    obtain ⟨h, old, rfl⟩ := mem_setTimer.mp member
    split_ifs
    · exact .inl ⟨h, old, rfl, rfl, .inr rfl⟩
    · exact .inl ⟨h, old, rfl, rfl, .inl rfl⟩

theorem sendMsg_calm (srv : Server) (client : ClientId) (msg : Message) :
    srv.Calm (srv.sendMsg client msg) := by
  unfold sendMsg
  split
  · exact .inr (.inl rfl)
  · exact ⟨rfl, .of_eq rfl rfl⟩

theorem sendToPlayer_calm (srv : Server) (s : SessionId) (i : PlayerIdx) (body : Body) :
    srv.Calm (srv.sendToPlayer s i body) := by
  unfold sendToPlayer
  split
  · exact .inl rfl
  · exact srv.sendMsg_calm _ _

theorem sendCopy_calm (srv : Server) (s : SessionId) (i : PlayerIdx) (msg : Message) :
    srv.Calm (srv.sendCopy s i msg) := by
  unfold sendCopy
  split
  · exact Quiet.refl srv
  · split
    · exact Quiet.refl srv
    · exact srv.sendMsg_calm _ _

theorem sendForAll_calm (srv : Server) (s : SessionId) (msg : Message) :
    srv.Calm (srv.sendForAll s msg) :=
  (srv.sendCopy_calm s 0 msg).bind fun srv' => srv'.sendCopy_calm s 1 msg

theorem sendGameState_calm (srv : Server) (s : SessionId) (i : PlayerIdx) :
    srv.Calm (srv.sendGameState s i) := by
  unfold sendGameState
  split
  · exact Quiet.refl srv
  · exact srv.sendMsg_calm _ _

theorem sendGameStateForAll_calm (srv : Server) (s : SessionId) :
    srv.Calm (srv.sendGameStateForAll s) :=
  (srv.sendGameState_calm s 0).bind fun srv' => srv'.sendGameState_calm s 1

theorem disconnectPlayer_calm (srv : Server) (s : SessionId) (player : ClientId) :
    srv.Calm (srv.disconnectPlayer s player) := by
  unfold disconnectPlayer
  split
  · exact srv.setSession_quiet s _
  · exact srv.sendGameStateForAll_calm s

theorem startPreparation_calm (srv : Server) (s : SessionId) (now : Int64) :
    srv.Calm (srv.startPreparation s now) := by
  unfold startPreparation
  split
  · exact Quiet.refl srv
  · refine Calm.after (srv.setGameState_quiet s _) ((sendForAll_calm _ _ _).bind fun srv' => ?_)
    exact srv'.addTimeoutHandler_quiet .preparation s

theorem stopPreparation_calm (srv : Server) (s : SessionId) : srv.Calm (srv.stopPreparation s) := by
  unfold stopPreparation
  split
  · exact Quiet.refl srv
  · refine (srv.sendForAll_calm s _).bind fun srv' => ?_
    refine Calm.after (srv'.setGameState_quiet s .waitStart) ?_
    exact Calm.after (addTimeoutHandler_quiet _ .checkStartFields s) (sendGameStateForAll_calm _ s)

theorem sendStartFieldsTo_calm (srv : Server) (s : SessionId) (i : PlayerIdx) :
    srv.Calm (srv.sendStartFieldsTo s i) :=
  (srv.sendToPlayer_calm s i _).bind fun srv' => srv'.sendToPlayer_calm s i _

theorem sendStartFields_calm (srv : Server) (s : SessionId) : srv.Calm (srv.sendStartFields s) := by
  unfold sendStartFields
  split
  · exact Quiet.refl srv
  · exact (srv.sendStartFieldsTo_calm s 0).bind fun srv' => srv'.sendStartFieldsTo_calm s 1

theorem startNewTurn_calm (srv : Server) (s : SessionId) (now : Int64) :
    srv.Calm (srv.startNewTurn s now) := by
  unfold startNewTurn
  split
  · exact Quiet.refl srv
  · refine Calm.after (srv.setGameState_quiet s _) ((sendToPlayer_calm _ _ _ _).bind fun srv' => ?_)
    refine (sendToPlayer_calm _ _ _ _).bind fun srv'' => ?_
    exact (srv''.addTimeoutHandler_quiet .gameTurn s).trans (setSession_quiet _ s _)

theorem endTurn_calm (srv : Server) (s : SessionId) : srv.Calm (srv.endTurn s) := by
  unfold endTurn
  split
  · exact Quiet.refl srv
  · refine Calm.after (srv.setGameState_quiet s _) ((sendToPlayer_calm _ _ _ _).bind fun srv' => ?_)
    refine (sendToPlayer_calm _ _ _ _).bind fun srv'' => ?_
    refine Calm.after (srv''.addTimeoutHandler_quiet .changeTurn s) ?_
    dsimp only
    split
    · exact Quiet.refl _
    · exact (stopTimeout_calm _ _).bind fun srv₃ => srv₃.setSession_quiet s _

theorem sendFields_calm (srv : Server) (s : SessionId) : srv.Calm (srv.sendFields s) :=
  (srv.sendToPlayer_calm s _ _).bind fun srv' => srv'.sendToPlayer_calm s _ _

theorem sendGameResult_calm (srv : Server) (s : SessionId) : srv.Calm (srv.sendGameResult s) :=
  (srv.sendToPlayer_calm s _ _).bind fun srv' => srv'.sendToPlayer_calm s _ _

theorem disconnectFromGameSession_comes (srv : Server) (client : ClientId) :
    Comes (srv.disconnectFromGameSession client) fun srv' =>
      srv.Arms srv' ∧ srv'.crew.gone client = srv.crew.gone client := by
  unfold disconnectFromGameSession
  split
  · exact .inr (.inl rfl)
  · exact ⟨.of_eq rfl rfl, rfl⟩
  · refine Ends.bind (srv.disconnectPlayer_calm _ client) fun srv' quiet => ?_
    refine ⟨quiet.arms.trans (.of_eq rfl rfl), ?_⟩
    rw [← quiet.crew]
    simp [Crew.gone, crew]

theorem disconnectClient_leaves (srv : Server) (client : ClientId) :
    Comes (srv.disconnectClient client) fun srv' =>
      srv.Arms srv' ∧ srv'.crew = srv.crew.gone client := by
  refine (srv.disconnectFromGameSession_comes client).bind fun srv' ⟨arms, crew⟩ => ?_
  exact ⟨arms.trans (.of_eq rfl rfl), crew⟩

theorem connBroken_leaves (srv : Server) (client : ClientId) :
    Comes (srv.connBroken client) fun srv' =>
      srv.Arms srv' ∧ srv'.crew = srv.crew.gone client := by
  refine (srv.disconnectFromGameSession_comes client).bind fun srv' ⟨arms, crew⟩ => ?_
  refine (srv'.disconnectClient_leaves client).mono fun srv'' ⟨arms', crew'⟩ => ?_
  exact ⟨arms.trans arms', crew'.trans crew⟩

abbrev Departs (srv : Server) (x : Except Fault Server) : Prop :=
  Ends (fun _ => True) x srv.Leaves

theorem Calm.departs {srv : Server} {x : Except Fault Server} (calm : srv.Calm x) :
    srv.Departs x := by
  cases x with
  | error fault => trivial
  | ok srv' => exact calm.leaves

theorem Departs.after {srv srv' : Server} (quiet : srv.Quiet srv') {x : Except Fault Server}
    (departs : srv'.Departs x) : srv.Departs x :=
  departs.mono fun _ leaves => quiet.leaves.trans leaves

theorem Departs.bind {srv : Server} {x : Except Fault Server} {f : Server → Except Fault Server}
    (first : srv.Departs x) (next : ∀ srv' : Server, srv'.Departs (f srv')) :
    srv.Departs (x >>= f) :=
  Ends.bind first fun srv' leaves => (next srv').mono fun _ leaves' => leaves.trans leaves'

theorem disconnectClient_departs (srv : Server) (client : ClientId) :
    srv.Departs (srv.disconnectClient client) := by
  have leaves := srv.disconnectClient_leaves client
  cases done : srv.disconnectClient client with
  | error fault => trivial
  | ok srv' => exact ⟨⟨[client], (leaves.elim done).2⟩, (leaves.elim done).1⟩

theorem startGame_departs (srv : Server) (s : SessionId) (now : Int64) (draws : List Nat) :
    srv.Departs (srv.startGame s now draws) := by
  unfold startGame
  split
  · exact (Quiet.refl srv).leaves
  · split
    · trivial
    · exact Departs.after (srv.setSession_quiet s _) (startNewTurn_calm _ s now).departs

theorem changeTurnPlayer_departs (srv : Server) (s : SessionId) (now : Int64)
    (draws : List Nat) : srv.Departs (srv.changeTurnPlayer s now draws) := by
  unfold changeTurnPlayer
  split
  · exact (Quiet.refl srv).leaves
  · split
    · trivial
    · refine Departs.after (srv.setSession_quiet s _) (Calm.departs ((sendFields_calm _ s).bind
        fun srv' => ?_))
      split
      · exact (srv'.sendGameResult_calm s).bind fun srv'' => srv''.addTimeoutHandler_quiet .endGame s
      · split
        · exact Calm.after (srv'.setSession_quiet s _) (startNewTurn_calm _ s now)
        · exact srv'.startNewTurn_calm s now

theorem checkStartField_departs (srv : Server) (s : SessionId) (i : PlayerIdx) :
    srv.Departs (srv.checkStartField s i) := by
  unfold checkStartField
  split
  · exact (Quiet.refl srv).leaves
  · split
    · exact (Quiet.refl srv).leaves
    · exact srv.disconnectClient_departs _

theorem checkStartFields_departs (srv : Server) (s : SessionId) :
    srv.Departs (srv.checkStartFields s) := by
  refine (srv.checkStartField_departs s 0).bind fun srv' => ?_
  refine (srv'.checkStartField_departs s 1).bind fun srv'' => ?_
  split
  · refine ((srv''.sendStartFields_calm s).bind fun srv₃ => ?_).departs
    exact srv₃.addTimeoutHandler_quiet .gameStart s
  · split
    · exact (Calm.after (srv''.setGameState_quiet s _) (sendGameStateForAll_calm _ s)).departs
    · exact (Quiet.refl srv'').leaves

theorem endGameFor_departs (srv : Server) (s : SessionId) (i : PlayerIdx) :
    srv.Departs (srv.endGameFor s i) := by
  unfold endGameFor
  split
  · exact (Quiet.refl srv).leaves
  · exact srv.disconnectClient_departs _

theorem endGame_departs (srv : Server) (s : SessionId) : srv.Departs (srv.endGame s) :=
  (srv.endGameFor_departs s 0).bind fun srv' => srv'.endGameFor_departs s 1

theorem timeoutEvent_departs (srv : Server) (kind : TimeoutKind) (s : SessionId) (now : Int64)
    (draws : List Nat) : srv.Departs (srv.timeoutEvent kind s now draws) := by
  cases kind with
  | preparation => exact (srv.stopPreparation_calm s).departs
  | checkStartFields => exact srv.checkStartFields_departs s
  | gameStart => exact srv.startGame_departs s now draws
  | gameTurn => exact (srv.endTurn_calm s).departs
  | changeTurn => exact srv.changeTurnPlayer_departs s now draws
  | endGame => exact srv.endGame_departs s

/-- A turn of the loop of `_process_timeouts`: the timer runs down, its event may happen,
and the handler goes if it has elapsed. -/
theorem processTimeout_comes (srv : Server) (h : Handler) (sec usec : Int) (now : Int64)
    (draws : List Nat) : Ends (fun _ => True) (srv.processTimeout h sec usec now draws) fun srv' =>
      ∃ srv₁, (srv.setTimer h.id (h.timer.process sec usec).2).Leaves srv₁ ∧
        srv' = srv₁.dropElapsed h.id := by
  unfold processTimeout
  dsimp only
  split
  · refine Ends.bind (timeoutEvent_departs _ h.kind h.session now draws) fun srv₁ leaves => ?_
    exact ⟨srv₁, leaves, rfl⟩
  · exact ⟨_, (Quiet.refl _).leaves, rfl⟩

theorem setGameSession_spec {srv srv₁ : Server} {c : ClientId} {s : SessionId}
    (joined : srv.setGameSession c s = some srv₁) : srv.clients c = some ⟨none⟩ ∧
      ∃ session, (srv.sessions s).setPlayer c = some session ∧
        srv₁ = { srv.setSession s session with
          clients := Function.update srv.clients c (some ⟨some s⟩) } := by
  unfold setGameSession at joined
  split at joined
  · rename_i alone
    split at joined
    · cases joined
    · rename_i session taken
      exact ⟨alone, session, taken, (Option.some.inj joined).symm⟩
  · cases joined

structure Mingles (srv : Server) (c : ClientId) (srv' : Server) : Prop where
  crew : srv'.crew = srv.crew ∨ srv.clients c = some ⟨none⟩ ∧
    ∃ s inGame, srv.clientsInGame.add c = some inGame ∧ srv'.crew = srv.crew.joined c s inGame
  arms : srv.Arms srv'

theorem Quiet.mingles {srv srv' : Server} (quiet : srv.Quiet srv') (c : ClientId) :
    srv.Mingles c srv' := ⟨.inl quiet.crew, quiet.arms⟩

theorem Mingles.trans {srv srv' srv'' : Server} {c : ClientId} (first : srv.Mingles c srv')
    (second : srv'.Quiet srv'') : srv.Mingles c srv'' :=
  ⟨second.crew ▸ first.crew, first.arms.trans second.arms⟩

theorem opened_takes {srv : Server} {c : ClientId} (alone : srv.clients c = some ⟨none⟩) :
    ∃ srv₁, srv.opened.setGameSession c srv.sessionCount = some srv₁ := by
  have blank : srv.opened.sessions srv.sessionCount = Session.new := Function.update_self ..
  have absent (i : PlayerIdx) : (srv.opened.sessions srv.sessionCount).players i ≠ some c := by
    simp [blank, Session.new]
  have vacant : (srv.opened.sessions srv.sessionCount).isVacant = true := by
    rw [blank]
    decide
  have alone : srv.opened.clients c = some ⟨none⟩ := alone
  exact ⟨_, (setGameSession_alone alone absent).trans (if_pos vacant)⟩

theorem changeClientQueue_true {srv srv' : Server} {c : ClientId}
    (done : srv.changeClientQueue c = (true, srv')) :
    ∃ inGame, srv.clientsInGame.add c = some inGame ∧ srv' = { srv with
      clientsInGame := inGame, clientsQueue := srv.clientsQueue.remove c } := by
  unfold changeClientQueue at done
  split at done
  · cases done
  · rename_i inGame added
    exact ⟨inGame, added, (Prod.mk.inj done).2.symm⟩

theorem Sound.changeClientQueue {srv srv₁ : Server} (sound : srv.Sound) {c : ClientId}
    {s : SessionId} (born : s < srv.sessionCount) (joined : srv.setGameSession c s = some srv₁) :
    ∃ srv', srv₁.changeClientQueue c = (true, srv') := by
  obtain ⟨_, session, taken, rfl⟩ := setGameSession_spec joined
  have vacant : (srv.sessions s).isVacant = true := by
    by_contra full
    simp [Session.setPlayer, full] at taken
  obtain ⟨slots, stored⟩ := sound.place born (Session.freeIdx_free vacant) c
  refine ⟨srv.joined c s session slots, ?_⟩
  simp [Server.changeClientQueue, ClientArray.add_eq, setSession, stored, Server.joined]

/-- A session that takes the player is found or made and the arrays change, or all is
full. -/
theorem connectPlayerToGame_cases {srv : Server} (sound : srv.Sound) {c : ClientId}
    (alone : srv.clients c = some ⟨none⟩) : srv.connectPlayerToGame c = (false, srv) ∨
      ∃ srv₁ s srv₂ srv', srv₁.crew = srv.crew ∧ srv.Arms srv₁ ∧
        srv₁.setGameSession c s = some srv₂ ∧ srv₂.changeClientQueue c = (true, srv') ∧
        srv.connectPlayerToGame c = (true, srv') := by
  unfold connectPlayerToGame
  cases found : srv.findSession c with
  | some s =>
      have takes := List.find?_some (p := fun s => (srv.setGameSession c s).isSome) found
      have born := List.mem_range.mp (List.mem_of_find?_eq_some found)
      obtain ⟨srv₂, joined⟩ := Option.isSome_iff_exists.mp takes
      obtain ⟨srv', fits⟩ := sound.changeClientQueue born joined
      refine .inr ⟨srv, s, srv₂, srv', rfl, .of_eq rfl rfl, joined, fits, ?_⟩
      simpa only [joined, Option.getD_some] using fits
  | none =>
      by_cases full : srv.sessionCount = gameCount
      · exact .inl (if_pos full)
      · obtain ⟨srv₂, joined⟩ := opened_takes alone
        obtain ⟨srv', fits⟩ :=
          (sound.opened full).sound.changeClientQueue (Nat.lt_succ_self _) joined
        refine .inr ⟨srv.opened, srv.sessionCount, srv₂, srv', rfl, .of_eq rfl rfl, joined, fits, ?_⟩
        have place : (srv.opened.setGameSession c srv.sessionCount).getD srv.opened = srv₂ := by
          rw [joined, Option.getD_some]
        rw [← fits, ← place]
        exact if_neg full

theorem connectPlayerToGame_refuses {srv srv' : Server} (sound : srv.Sound) {c : ClientId}
    (alone : srv.clients c = some ⟨none⟩)
    (refused : srv.connectPlayerToGame c = (false, srv')) : srv' = srv := by
  rcases connectPlayerToGame_cases sound alone with same | ⟨_, _, _, _, _, _, _, _, done⟩
  · exact (Prod.mk.inj (refused.symm.trans same)).2
  · cases refused.symm.trans done

theorem connectPlayerToGame_mingles {srv : Server} (sound : srv.Sound) {c : ClientId}
    (alone : srv.clients c = some ⟨none⟩) : srv.Mingles c (srv.connectPlayerToGame c).2 := by
  rcases connectPlayerToGame_cases sound alone with
    same | ⟨srv₁, s, srv₂, srv', crew, arms, joined, fits, done⟩
  · rw [same]
    exact (Quiet.refl srv).mingles c
  · rw [done]
    obtain ⟨_, session, _, rfl⟩ := setGameSession_spec joined
    obtain ⟨inGame, added, rfl⟩ := changeClientQueue_true fits
    have game : srv₁.clientsInGame = srv.clientsInGame := congrArg Crew.clientsInGame crew
    refine ⟨.inr ⟨alone, s, inGame, game ▸ added, ?_⟩, arms.trans (.of_eq rfl rfl)⟩
    rw [← crew]
    rfl

theorem processGameSessionReqMsg_mingles {srv : Server} (sound : srv.Sound) {c : ClientId}
    (alive : srv.clients c ≠ none) (now : Int64) :
    Comes (srv.processGameSessionReqMsg c now) (srv.Mingles c) := by
  have answers {srv₁ : Server} (mingles : srv.Mingles c srv₁) {x : Except Fault Server}
      (calm : srv₁.Calm x) : Comes x (srv.Mingles c) :=
    calm.mono fun _ quiet => mingles.trans quiet
  unfold processGameSessionReqMsg
  cases session : srv.gameSessionOf c with
  | some s =>
      simp only [session]
      split_ifs
      · exact answers ((Quiet.refl srv).mingles c) (srv.startPreparation_calm _ now)
      · exact answers ((Quiet.refl srv).mingles c) (srv.sendMsg_calm c _)
  | none =>
      have alone := gameSessionOf_alone alive session
      rcases connected : srv.connectPlayerToGame c with ⟨joined, srv₁⟩
      have mingles := connectPlayerToGame_mingles sound alone
      rw [connected] at mingles
      cases joined with
      | false => exact answers mingles (srv₁.sendMsg_calm c _)
      | true =>
          cases member : srv₁.gameSessionOf c with
          | none =>
              simp only [member]
              exact .inl rfl
          | some s =>
              simp only [member]
              split_ifs
              · exact answers mingles (srv₁.startPreparation_calm _ now)
              · exact answers mingles (srv₁.sendMsg_calm c _)

theorem processGameFieldMsg_calm (srv : Server) (c : ClientId) (id : Int64) (field : GameField) :
    srv.Calm (srv.processGameFieldMsg c id field) := by
  unfold processGameFieldMsg
  split
  · exact srv.sendMsg_calm c _
  · split
    · exact srv.sendMsg_calm c _
    · split
      · exact Calm.after (srv.setSession_quiet _ _) (sendMsg_calm _ c _)
      · exact srv.sendMsg_calm c _

theorem processGameMoveMsg_calm (srv : Server) (c : ClientId) (point : Point) :
    srv.Calm (srv.processGameMoveMsg c point) := by
  unfold processGameMoveMsg
  split
  · exact srv.sendMsg_calm c _
  · split
    · split
      · exact Calm.after (srv.setSession_quiet _ _) (endTurn_calm _ _)
      · exact Quiet.refl srv
    · exact Quiet.refl srv

theorem processMsg_mingles {srv : Server} (sound : srv.Sound) {c : ClientId}
    (alive : srv.clients c ≠ none) (msg : Message) (now : Int64) :
    Comes (srv.processMsg c msg now) (srv.Mingles c) := by
  have acknowledged {x : Except Fault Server} (handled : Comes x (srv.Mingles c)) :
      Comes (x >>= fun srv₁ => if msg.type ≠ .receipt then
        srv₁.sendMsg c (Message.new (.receipt msg.id)) else .ok srv₁) (srv.Mingles c) := by
    refine handled.bind fun srv₁ mingles => ?_
    split_ifs
    · exact (srv₁.sendMsg_calm c _).mono fun _ quiet => mingles.trans quiet
    · exact mingles
  have untouched {x : Except Fault Server} (calm : srv.Calm x) : Comes x (srv.Mingles c) :=
    calm.mono fun _ quiet => quiet.mingles c
  unfold processMsg
  dsimp only
  split
  · exact acknowledged (processGameSessionReqMsg_mingles sound alive now)
  · exact acknowledged (untouched (srv.processGameFieldMsg_calm c _ _))
  · exact acknowledged (untouched (srv.processGameMoveMsg_calm c _))
  · exact acknowledged (x := .ok srv) (untouched (Quiet.refl srv))

/-- What an event makes of the clients and their arrays. -/
inductive Moves (srv : Server) : Event → Crew → Prop where
  | refused (full : srv.clientsQueue.isFull = true) : Moves srv .accept srv.crew
  | accepted {queue : ClientArray} (added : srv.clientsQueue.add srv.nextClient = some queue) :
      Moves srv .accept { srv.crew with
        clientsQueue := queue
        clients := Function.update srv.clients srv.nextClient (some ⟨none⟩)
        nextClient := srv.nextClient + 1 }
  | message {c : ClientId} {msg : Message} {now : Int64} (alive : srv.clients c ≠ none) :
      Moves srv (.message c msg now) srv.crew
  | joined {c : ClientId} {msg : Message} {now : Int64} {s : SessionId} {inGame : ClientArray}
      (alone : srv.clients c = some ⟨none⟩) (added : srv.clientsInGame.add c = some inGame) :
      Moves srv (.message c msg now) (srv.crew.joined c s inGame)
  | broken {c : ClientId} (alive : srv.clients c ≠ none) : Moves srv (.broken c) (srv.crew.gone c)
  | timer {id : HandlerId} {sec usec : Int} {now : Int64} {draws : List Nat}
      (gone : List ClientId) :
      Moves srv (.timer id sec usec now draws) (gone.foldl Crew.gone srv.crew)

theorem step_moves_crew {srv srv' : Server} (sound : srv.Sound) {e : Event}
    (done : srv.step e = .ok srv') : srv.Moves e srv'.crew := by
  cases e with
  | accept =>
      obtain rfl : srv.acceptNewConnection = srv' := Except.ok.inj done
      unfold acceptNewConnection
      split
      · rename_i full
        exact .refused full
      · rename_i room
        -- There is a slot, so the default that the model gives `add` is not used.
        obtain ⟨queue, added⟩ := ClientArray.add_room room srv.nextClient
        simp only [added, Option.getD_some]
        exact .accepted added
  | message c msg now =>
      by_cases alive : (srv.clients c).isSome
      · have alive' : srv.clients c ≠ none := Option.isSome_iff_ne_none.mp alive
        simp only [step, alive, ↓reduceIte] at done
        rcases ((processMsg_mingles sound alive' msg now).elim done).crew with
          same | ⟨alone, s, inGame, added, crew⟩
        · rw [same]
          exact .message alive'
        · rw [crew]
          exact .joined alone added
      · simp [step, alive] at done
  | broken c =>
      by_cases alive : (srv.clients c).isSome
      · simp only [step, alive, ↓reduceIte] at done
        rw [((srv.connBroken_leaves c).elim done).2]
        exact .broken (Option.isSome_iff_ne_none.mp alive)
      · simp [step, alive] at done
  | timer id sec usec now draws =>
      cases found : srv.timeoutHandlers.find? fun h => h.id = id with
      | none => simp [step, found] at done
      | some h =>
          simp only [step, found] at done
          obtain ⟨srv₁, leaves, rfl⟩ := (srv.processTimeout_comes h sec usec now draws).elim done
          obtain ⟨gone, crew⟩ := leaves.crew
          have same : (srv₁.dropElapsed h.id).crew = gone.foldl Crew.gone srv.crew := crew
          exact same ▸ .timer gone

end Server
end Battleship
