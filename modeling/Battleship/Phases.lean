import Battleship.Seating

/-! What the operations of a game do to the room of their session and that they
leave the other rooms alone. -/
namespace Battleship

open Runs

@[simp] theorem Body.news_gameState (state : GameState) :
    (Body.gameState state.code).news = some state := GameState.ofCode_code state

namespace Room

def hearIf (room : Room) (i : PlayerIdx) (body : Body) : Room :=
  if (room.session.players i).isSome then room.hear i body else room

@[simp] theorem hear_session (room : Room) (i : PlayerIdx) (body : Body) :
    (room.hear i body).session = room.session := rfl
@[simp] theorem hear_pending (room : Room) (i : PlayerIdx) (body : Body) :
    (room.hear i body).pending = room.pending := rfl

@[simp] theorem hearIf_session (room : Room) (i : PlayerIdx) (body : Body) :
    (room.hearIf i body).session = room.session := by
  unfold hearIf
  split_ifs <;> rfl

theorem hear_silent (room : Room) (i : PlayerIdx) {body : Body} (silent : body.news = none) :
    room.hear i body = room := by
  simp [hear, silent]

theorem hearIf_both (room : Room) (body : Body) :
    (room.hearIf 0 body).hearIf 1 body = room.hearAll body := by
  refine Room.ext ?_ ?_ ?_
  · simp [hearAll]
  · unfold hearIf hearAll
    split_ifs <;> rfl
  · funext i
    simp only [hearIf, hearAll]
    fin_cases i <;> split_ifs <;> simp_all [hear]

theorem hear_both (room : Room) {body body' : Body} (state : GameState)
    (conveys : body.news = some state) (conveys' : body'.news = some state) (i : PlayerIdx) :
    (room.hear i body).hear (getEnemyIdx i) body' = room.tellBoth state := by
  refine Room.ext rfl rfl ?_
  funext j
  fin_cases i <;> fin_cases j <;> simp [hear, tellBoth, getEnemyIdx, conveys, conveys']

theorem hear_news (room : Room) (i : PlayerIdx) {body : Body} {state : GameState}
    (conveys : body.news = some state) : room.hear i body = room.tell i state := by
  simp [hear, tell, conveys]

theorem hearAll_full {room : Room} (full : room.session.Full) {body : Body} {state : GameState}
    (conveys : body.news = some state) : room.hearAll body = room.tellBoth state := by
  refine Room.ext rfl rfl ?_
  funext i
  obtain ⟨c, seated⟩ := full i
  simp [hearAll, tellBoth, seated, conveys]

theorem arm_without (room : Room) {h t : HandlerId} (other : h ≠ t) (kind : TimeoutKind) :
    (room.arm h kind).without t = (room.without t).arm h kind := by
  refine Room.ext rfl (Set.ext fun ⟨id, k⟩ => ?_) rfl
  simp only [mem_without, mem_arm, Prod.mk.injEq]
  constructor
  · rintro ⟨⟨rfl, rfl⟩ | old, kept⟩
    · exact Or.inl ⟨rfl, rfl⟩
    · exact Or.inr ⟨old, kept⟩
  · rintro (⟨rfl, rfl⟩ | ⟨old, kept⟩)
    · exact ⟨Or.inl ⟨rfl, rfl⟩, other⟩
    · exact ⟨Or.inr old, kept⟩

end Room

namespace Server

variable {allowed : Fault → Prop}

theorem sendToPlayer_seated {srv : Server} (sound : srv.Sound) {s : SessionId} {i : PlayerIdx}
    {c : ClientId} (seated : (srv.sessions s).players i = some c) (body : Body) :
    srv.sendToPlayer s i body = .ok (srv.push c (Message.new body)) := by
  simp [sendToPlayer, seated, sendMsg_alive (sound.seats.alive seated)]

theorem Shows.sendToPlayer {base : SessionId → Room} {s : SessionId} {room : Room} {srv : Server}
    (shows_ : Shows base s room srv) (full : room.session.Full) (i : PlayerIdx) (body : Body) :
    Ends allowed (srv.sendToPlayer s i body) (Shows base s (room.hear i body)) := by
  obtain ⟨c, seated⟩ := full i
  have here : (srv.sessions s).players i = some c := by rw [shows_.session, seated]
  refine Ends.of_eq (sendToPlayer_seated shows_.sound here body) ?_
  simpa using shows_.push seated (Message.new body)

theorem Shows.sendToPlayer_silent {base : SessionId → Room} {s : SessionId} {room : Room}
    {srv : Server} (shows_ : Shows base s room srv) (full : room.session.Full) (i : PlayerIdx)
    {body : Body} (silent : body.news = none) :
    Ends allowed (srv.sendToPlayer s i body) (Shows base s room) := by
  have sent : Ends allowed _ _ := shows_.sendToPlayer full i body
  rwa [Room.hear_silent _ _ silent] at sent

theorem Shows.sendCopy {base : SessionId → Room} {s : SessionId} {room : Room} {srv : Server}
    (shows_ : Shows base s room srv) (i : PlayerIdx) (msg : Message) :
    Ends allowed (srv.sendCopy s i msg) (Shows base s (room.hearIf i msg.body)) := by
  unfold Server.sendCopy Room.hearIf
  rw [← shows_.session]
  split
  · rename_i empty
    simpa [empty] using shows_
  · rename_i c seated
    simp only [createInstance_getData, sendMsg_alive (shows_.sound.seats.alive seated)]
    simpa [seated] using shows_.push (by rwa [← shows_.session]) msg

theorem Shows.sendForAll {base : SessionId → Room} {s : SessionId} {room : Room} {srv : Server}
    (shows_ : Shows base s room srv) (msg : Message) :
    Ends allowed (srv.sendForAll s msg) (Shows base s (room.hearAll msg.body)) := by
  refine (shows_.sendCopy 0 msg).bind fun srv₁ shows₁ => ?_
  rw [← Room.hearIf_both]
  exact shows₁.sendCopy 1 msg

theorem Shows.sendGameState {base : SessionId → Room} {s : SessionId} {room : Room} {srv : Server}
    (shows_ : Shows base s room srv) (i : PlayerIdx) :
    Ends allowed (srv.sendGameState s i)
      (Shows base s (room.hearIf i (.gameState room.session.state.code))) := by
  unfold Server.sendGameState Room.hearIf
  rw [← shows_.session]
  split
  · rename_i empty
    simpa [empty] using shows_
  · rename_i c seated
    rw [sendMsg_alive (shows_.sound.seats.alive seated)]
    simpa [seated] using shows_.push (by rwa [← shows_.session])
      (Message.new (.gameState (srv.sessions s).state.code))

theorem Shows.sendGameStateForAll {base : SessionId → Room} {s : SessionId} {room : Room}
    {srv : Server} (shows_ : Shows base s room srv) :
    Ends allowed (srv.sendGameStateForAll s)
      (Shows base s (room.hearAll (.gameState room.session.state.code))) := by
  refine (shows_.sendGameState 0).bind fun srv₁ shows₁ => ?_
  rw [← Room.hearIf_both]
  simpa using shows₁.sendGameState 1

theorem Shows.sendForAll_full {base : SessionId → Room} {s : SessionId} {room : Room}
    {srv : Server} (shows_ : Shows base s room srv) (full : room.session.Full) {msg : Message}
    {state : GameState} (conveys : msg.body.news = some state) :
    Ends allowed (srv.sendForAll s msg) (Shows base s (room.tellBoth state)) := by
  rw [← Room.hearAll_full full conveys]
  exact shows_.sendForAll msg

theorem Shows.sendGameStateForAll_full {base : SessionId → Room} {s : SessionId} {room : Room}
    {srv : Server} (shows_ : Shows base s room srv) (full : room.session.Full) :
    Ends allowed (srv.sendGameStateForAll s) (Shows base s (room.tellBoth room.session.state)) := by
  rw [← Room.hearAll_full full (Body.news_gameState _)]
  exact shows_.sendGameStateForAll

theorem Shows.startPreparation {base : SessionId → Room} {s : SessionId} {room : Room}
    {srv : Server} (shows_ : Shows base s room srv) (full : room.session.Full)
    (state : room.session.state = .waitPreparation) (now : Int64) :
    Ends allowed (srv.startPreparation s now) fun srv' => ∃ h, room.Fresh h ∧
      Shows base s ((room.enter .preparation).arm h .preparation) srv' := by
  unfold Server.startPreparation
  rw [shows_.session, if_neg (by simp [state])]
  refine ((shows_.setGameState .preparation).sendForAll_full full rfl).bind fun srv₁ shows₁ => ?_
  obtain ⟨fresh, armed⟩ := shows₁.addTimeoutHandler .preparation (by decide : 0 < preparationDuration)
  exact ⟨_, fresh, armed⟩

theorem Shows.stopPreparation {base : SessionId → Room} {s : SessionId} {room : Room}
    {srv : Server} (shows_ : Shows base s room srv) (full : room.session.Full)
    (state : room.session.state = .preparation) :
    Ends allowed (srv.stopPreparation s) fun srv' => ∃ h, room.Fresh h ∧
      Shows base s (((room.enter .waitStart).enter .waitStart).arm h .checkStartFields) srv' := by
  unfold Server.stopPreparation
  rw [shows_.session, if_neg (by simp [state])]
  refine (shows_.sendForAll_full full rfl).bind fun srv₁ shows₁ => ?_
  obtain ⟨fresh, armed⟩ := (shows₁.setGameState .waitStart).addTimeoutHandler .checkStartFields
    (by decide : 0 < waitDuration)
  exact (armed.sendGameStateForAll_full full).mono fun srv₂ shows₂ => ⟨_, fresh, shows₂⟩

theorem Shows.sendStartFieldsTo {base : SessionId → Room} {s : SessionId} {room : Room}
    {srv : Server} (shows_ : Shows base s room srv) (full : room.session.Full) (i : PlayerIdx) :
    Ends allowed (srv.sendStartFieldsTo s i) (Shows base s room) := by
  exact (shows_.sendToPlayer_silent full i rfl).bind fun srv₁ shows₁ =>
    shows₁.sendToPlayer_silent full i rfl

theorem Shows.sendStartFields {base : SessionId → Room} {s : SessionId} {room : Room}
    {srv : Server} (shows_ : Shows base s room srv) (full : room.session.Full) :
    Ends allowed (srv.sendStartFields s) (Shows base s room) := by
  unfold Server.sendStartFields
  split
  · exact shows_
  · exact (shows_.sendStartFieldsTo full 0).bind fun srv₁ shows₁ =>
      shows₁.sendStartFieldsTo full 1

theorem Shows.startNewTurn {base : SessionId → Room} {s : SessionId} {room : Room}
    {srv : Server} (shows_ : Shows base s room srv) (full : room.session.Full)
    (state : room.session.state = .waitStart ∨ room.session.state = .processTurn) (now : Int64) :
    Ends allowed (srv.startNewTurn s now) fun srv' => ∃ h, room.Fresh h ∧
      Shows base s (room.startTurn h) srv' := by
  unfold Server.startNewTurn
  rw [shows_.session, if_neg (by rcases state with wait | process <;> simp [*])]
  have shows₁ := shows_.setGameState .gameTurn
  refine (shows₁.sendToPlayer full _ _).bind fun srv₂ shows₂ => ?_
  refine (shows₂.sendToPlayer full _ _).bind fun srv₃ shows₃ => ?_
  have idx : (srv₂.sessions s).enemyIdx =
      getEnemyIdx ((srv.setGameState s .gameTurn).sessions s).curTurnPlayerIdx := by
    rw [shows₂.session, shows₁.session]
    rfl
  rw [idx, Room.hear_both _ .gameTurn rfl rfl] at shows₃
  obtain ⟨fresh, armed⟩ := shows₃.addTimeoutHandler .gameTurn (by decide : 0 < turnDuration)
  refine ⟨srv₃.nextHandler, fresh, ?_⟩
  have last := armed.setSession { room.session with
    state := .gameTurn, turnTimeout := some srv₃.nextHandler } rfl
  have session := armed.session
  simp only [session]
  exact last

theorem Shows.startGame {base : SessionId → Room} {s : SessionId} {room : Room}
    {srv : Server} (shows_ : Shows base s room srv) (full : room.session.Full)
    (state : room.session.state = .waitStart) (now : Int64) (draws : List Nat)
    (short : draws = [] → allowed .drawsExhausted) :
    Ends allowed (srv.startGame s now draws) fun srv' => ∃ first h, room.Fresh h ∧ Shows base s
      ((room.withSession { room.session with curTurnPlayerIdx := first }).startTurn h) srv' := by
  unfold Server.startGame
  rw [shows_.session, if_neg (by simp [state])]
  split
  · exact short rfl
  · rename_i raw rest
    have shows₁ := shows_.setSession { room.session with
      curTurnPlayerIdx := if rand raw 2 = 0 then 0 else 1 } rfl
    exact (shows₁.startNewTurn full (Or.inl state) now).mono
      fun srv₂ ⟨h, fresh, shows₂⟩ => ⟨_, h, fresh, shows₂⟩

theorem Shows.told_free {base : SessionId → Room} {s : SessionId} {room : Room} {srv : Server}
    (shows_ : Shows base s room srv) {i : PlayerIdx} (free : room.session.players i = none) :
    room.told i = [] := by
  obtain ⟨_, _, rfl, _⟩ := shows_
  have free : (srv.sessions s).players i = none := free
  simp [Server.room, free]

theorem disconnect_does {base : SessionId → Room} {s : SessionId} {room : Room} {srv : Server}
    (shows_ : Shows base s room srv) {i : PlayerIdx} {c : ClientId}
    (seated : room.session.players i = some c) :
    Ends allowed (srv.disconnectClient c) (Shows base s (room.leave i)) := by
  have here : (srv.sessions s).players i = some c := by rw [shows_.session, seated]
  exact Ends.of_eq (disconnectClient_member shows_.sound here) (shows_.left seated)

theorem Shows.checkStartField {base : SessionId → Room} {s : SessionId} {room : Room}
    {srv : Server} (shows_ : Shows base s room srv) (i : PlayerIdx) :
    Ends allowed (srv.checkStartField s i) (Shows base s
      { room with
        session := room.session.evict i
        told := fun j => if ((room.session.evict i).players j).isSome then room.told j else [] }) := by
  have free := fun j => shows_.told_free (i := j)
  have unchanged (kept : room.session.evict i = room.session) : Room.mk (room.session.evict i)
      room.pending (fun j => if ((room.session.evict i).players j).isSome then room.told j else []) =
        room := by
    refine Room.ext kept rfl (funext fun j => ?_)
    rw [kept]
    cases there : room.session.players j with
    | none => simp [there, free j there]
    | some c => simp [there]
  unfold Server.checkStartField
  rw [shows_.session]
  split
  · rename_i empty
    rw [unchanged (by simp [Session.evict, empty])]
    exact shows_
  · rename_i c seated
    split
    · rename_i valid
      rw [unchanged (by simp [Session.evict, valid])]
      exact shows_
    · rename_i invalid
      -- The player is disconnected, and what he was told goes with him.
      have kicked : room.session.evict i = room.session.freeSlot i := by
        simp [Session.evict, seated, invalid]
      refine (disconnect_does shows_ seated).mono fun srv₁ shows₁ => ?_
      rw [kicked]
      convert shows₁ using 1
      refine Room.ext rfl rfl (funext fun j => ?_)
      by_cases same : j = i
      · subst same
        simp [Room.leave, Session.freeSlot]
      · simp only [Room.leave, Session.freeSlot, Function.update_of_ne same]
        cases there : room.session.players j with
        | none => simp [free j there]
        | some d => simp

theorem evict_full {session : Session} {i : PlayerIdx} (full : (session.evict i).Full) :
    session.evict i = session ∧ (session.fields i).isValidStartField = true := by
  unfold Session.evict at *
  split_ifs at * with invalid
  · obtain ⟨c, seated⟩ := full i
    simp [Session.freeSlot] at seated
  · refine ⟨rfl, ?_⟩
    obtain ⟨c, seated⟩ := full i
    simpa [seated] using invalid

theorem evictInvalid_full {session : Session} (full : session.evictInvalid.Full) :
    session.evictInvalid = session ∧ ∀ i, (session.fields i).isValidStartField = true := by
  unfold Session.evictInvalid at *
  obtain ⟨second, valid₁⟩ := evict_full full
  rw [second] at full
  obtain ⟨first, valid₀⟩ := evict_full full
  rw [first] at second valid₁
  rw [first]
  exact ⟨second, Fin.forall_fin_two.mpr ⟨valid₀, valid₁⟩⟩

theorem evict_players {session : Session} {i j : PlayerIdx}
    (gone : session.players j = none) : (session.evict i).players j = none := by
  unfold Session.evict
  split_ifs
  · by_cases same : j = i
    · subst same
      simp [Session.freeSlot]
    · simpa [Session.freeSlot, same] using gone
  · exact gone

theorem Shows.checkStartFields {base : SessionId → Room} {s : SessionId} {room : Room}
    {srv : Server} (shows_ : Shows base s room srv) :
    Ends allowed (srv.checkStartFields s) fun srv' =>
      (room.session.Full ∧ (∀ i, (room.session.fields i).isValidStartField = true) ∧
        ∃ h, room.Fresh h ∧ Shows base s (room.arm h .gameStart) srv') ∨
      (room.session.evictInvalid.getPlayersCount = 1 ∧
        Shows base s room.evictInvalid.waitAgain srv') ∨
      (room.session.evictInvalid.getPlayersCount = 0 ∧ Shows base s room.evictInvalid srv') := by
  refine (shows_.checkStartField 0).bind fun srv₁ shows₁ => ?_
  refine (shows₁.checkStartField 1).bind fun srv₂ shows₂ => ?_
  have both : Room.mk ((room.session.evict 0).evict 1) room.pending (fun j =>
      if (((room.session.evict 0).evict 1).players j).isSome then
        if ((room.session.evict 0).players j).isSome then room.told j else []
      else []) = room.evictInvalid := by
    refine Room.ext rfl rfl (funext fun j => ?_)
    simp only [Room.evictInvalid, Session.evictInvalid]
    cases there : (room.session.evict 0).players j with
    | none => simp [evict_players there]
    | some c => rfl
  rw [both] at shows₂
  simp only [shows₂.session, Room.evictInvalid_session]
  split
  -- Two players are left exactly if nobody was evicted.
  · rename_i two
    have full := Session.full_iff.mpr two
    obtain ⟨kept, valid⟩ := evictInvalid_full full
    rw [kept] at full
    have same : room.evictInvalid = room := by
      refine Room.ext kept rfl (funext fun j => ?_)
      obtain ⟨c, seated⟩ := full j
      simp [Room.evictInvalid, kept, seated]
    rw [same] at shows₂
    refine (shows₂.sendStartFields full).bind fun srv₃ shows₃ => Or.inl ⟨full, valid, ?_⟩
    obtain ⟨fresh, armed⟩ := shows₃.addTimeoutHandler .gameStart (by decide : 0 < waitDuration)
    exact ⟨_, fresh, armed⟩
  · split
    · rename_i one
      refine (shows₂.setGameState .waitPlayer).sendGameStateForAll.mono fun srv₃ shows₃ => ?_
      exact Or.inr (Or.inl ⟨one, shows₃⟩)
    · rename_i two one
      have bound := room.session.evictInvalid.count_le_two
      exact Or.inr (Or.inr ⟨by omega, shows₂⟩)

theorem Shows.endTurn {base : SessionId → Room} {s : SessionId} {room : Room} {srv : Server}
    (shows_ : Shows base s room srv) (full : room.session.Full)
    (state : room.session.state = .gameTurn) {t : HandlerId}
    (running : room.session.turnTimeout = some t)
    (known : ∃ handler ∈ srv.timeoutHandlers, handler.id = t ∧ handler.session = s) :
    Ends allowed (srv.endTurn s) fun srv' => ∃ h, room.Fresh h ∧
      Shows base s (room.endTurn t h) srv' := by
  have shows₁ := shows_.setGameState .processTurn
  obtain ⟨c, own⟩ := full room.session.curTurnPlayerIdx
  obtain ⟨d, enemy⟩ := full room.session.enemyIdx
  have shows₂ := shows₁.push own (Message.new (.stopTurn true))
  have shows₃ := shows₂.push enemy (Message.new (.stopTurn false))
  rw [Message.new_body, Message.new_body] at shows₃
  rw [show room.session.enemyIdx = getEnemyIdx room.session.curTurnPlayerIdx from rfl,
    Room.hear_both _ .processTurn rfl rfl] at shows₃
  obtain ⟨fresh, armed⟩ := shows₃.addTimeoutHandler .changeTurn (by decide : 0 < waitDuration)
  have first : (srv.setGameState s .processTurn).sendToPlayer s
      ((srv.setGameState s .processTurn).sessions s).curTurnPlayerIdx (.stopTurn true) = _ :=
    sendToPlayer_seated shows₁.sound (by rw [shows₁.session]; exact own) _
  have second : ((srv.setGameState s .processTurn).push c (Message.new (.stopTurn true))).sendToPlayer
      s (((srv.setGameState s .processTurn).push c (Message.new (.stopTurn true))).sessions
        s).enemyIdx (.stopTurn false) = _ :=
    sendToPlayer_seated shows₂.sound (by rw [shows₂.session]; exact enemy) _
  unfold Server.endTurn
  rw [shows_.session, if_neg (by simp [state])]
  refine (show Ends allowed _ (· = _) from Ends.of_eq first rfl).bind ?_
  rintro _ rfl
  refine (show Ends allowed _ (· = _) from Ends.of_eq second rfl).bind ?_
  rintro _ rfl
  simp only [armed.session, Room.arm_session, Room.tellBoth_session, Room.withSession_session,
    running]
  obtain ⟨handler, member, id, owned⟩ := known
  refine (armed.stopTimeout ⟨handler, List.mem_append_left _ member, id, owned⟩).bind ?_
  intro srv₄ shows₄
  have last := shows₄.setSession { room.session with
    state := .processTurn, turnTimeout := none } rfl
  -- The handler that was just registered is not the one that is stopped.
  have new := (Nat.ne_of_lt (shows₃.sound.handlers.known handler member)).symm
  rw [shows₄.session]
  rw [← id] at last ⊢
  rw [Room.arm_without _ new] at last
  exact ⟨_, fresh, last⟩

/-- The two fields are shown to both players, which tells them no state. -/
theorem Shows.sendFields {base : SessionId → Room} {s : SessionId} {room : Room} {srv : Server}
    (shows_ : Shows base s room srv) (full : room.session.Full) :
    Ends allowed (srv.sendFields s) (Shows base s room) := by
  exact (shows_.sendToPlayer_silent full _ rfl).bind fun srv₁ shows₁ =>
    shows₁.sendToPlayer_silent full _ rfl

theorem Shows.sendGameResult {base : SessionId → Room} {s : SessionId} {room : Room}
    {srv : Server} (shows_ : Shows base s room srv) (full : room.session.Full) :
    Ends allowed (srv.sendGameResult s) (Shows base s room.tellResult) := by
  refine (shows_.sendToPlayer full _ _).bind fun srv₁ shows₁ => ?_
  refine (shows₁.sendToPlayer full _ _).mono fun srv₂ shows₂ => ?_
  rw [Room.hear_news _ _ (Body.news_gameState .winGame),
    Room.hear_news _ _ (Body.news_gameState .loseGame), shows_.session, shows₁.session] at shows₂
  exact shows₂

theorem Shows.changeTurnPlayer {base : SessionId → Room} {s : SessionId} {room : Room}
    {srv : Server} (shows_ : Shows base s room srv) (full : room.session.Full)
    (state : room.session.state = .processTurn) (now : Int64) {draws : List Nat}
    {shotRes : CellState} {session : Session}
    (shot : room.session.registerShot draws = some (shotRes, session)) :
    Ends allowed (srv.changeTurnPlayer s now draws) fun srv' => ∃ h, room.Fresh h ∧
      (session.isGameOver = true ∧
          Shows base s ((room.withSession session).tellResult.arm h .endGame) srv' ∨
        session.isGameOver = false ∧
          Shows base s ((room.withSession (session.nextTurn shotRes)).startTurn h) srv') := by
  obtain ⟨fields, frame⟩ := Session.registerShot_frame shot
  have full₁ : session.Full := by rw [frame]; exact full
  have players : session.players = room.session.players := by rw [frame]
  unfold Server.changeTurnPlayer
  rw [shows_.session, if_neg (by simp [state])]
  simp only [shot]
  refine ((shows_.setSession _ players).sendFields full₁).bind fun srv₁ shows₁ => ?_
  simp only [shows₁.session, Room.withSession_session]
  split
  · rename_i finished
    refine (shows₁.sendGameResult full₁).bind fun srv₂ shows₂ => ?_
    obtain ⟨fresh, armed⟩ := shows₂.addTimeoutHandler .endGame (by decide : 0 < waitDuration)
    exact ⟨_, fresh, Or.inl ⟨finished, armed⟩⟩
  · rename_i ongoing
    have ongoing : session.isGameOver = false := by simpa using ongoing
    have process : session.state = .processTurn := by rw [frame]; exact state
    split
    -- A miss passes the turn on, a hit keeps it.
    · rename_i missed
      have next : session.nextTurn shotRes = session.changeCurTurnPlayerIdx := if_pos missed
      rw [next]
      have shows₂ := shows₁.setSession session.changeCurTurnPlayerIdx rfl
      exact (shows₂.startNewTurn full₁ (Or.inr process) now).mono
        fun srv₃ ⟨h, fresh, shows₃⟩ => ⟨h, fresh, Or.inr ⟨ongoing, shows₃⟩⟩
    · rename_i hit
      have next : session.nextTurn shotRes = session := if_neg hit
      rw [next]
      exact (shows₁.startNewTurn full₁ (Or.inr process) now).mono
        fun srv₃ ⟨h, fresh, shows₃⟩ => ⟨h, fresh, Or.inr ⟨ongoing, shows₃⟩⟩

theorem Shows.endGameFor {base : SessionId → Room} {s : SessionId} {room : Room} {srv : Server}
    (shows_ : Shows base s room srv) (i : PlayerIdx) :
    Ends allowed (srv.endGameFor s i)
      (Shows base s (if (room.session.players i).isSome then room.leave i else room)) := by
  unfold Server.endGameFor
  rw [shows_.session]
  split
  · rename_i empty
    simpa [empty] using shows_
  · rename_i c seated
    simpa [seated] using disconnect_does shows_ seated

theorem update_none (players : PlayerIdx → Option ClientId) (i : PlayerIdx)
    (other : players (getEnemyIdx i) = none) : Function.update players i none = fun _ => none := by
  funext j
  fin_cases i <;> fin_cases j <;> simp_all [getEnemyIdx]

theorem leave_last {base : SessionId → Room} {s : SessionId} {room : Room} {srv : Server}
    (shows_ : Shows base s room srv) {i : PlayerIdx}
    (waiting : room.session.state = .waitPlayer)
    (alone : room.session.players (getEnemyIdx i) = none) : room.leave i = room.empty := by
  refine Room.ext ?_ rfl (funext fun j => ?_)
  · simp [Session.freeSlot, waiting, update_none _ _ alone]
  · have quiet := shows_.told_free alone
    fin_cases i <;> fin_cases j <;> simp_all [Room.leave, Room.empty, getEnemyIdx]

theorem Shows.endGame {base : SessionId → Room} {s : SessionId} {room : Room} {srv : Server}
    (shows_ : Shows base s room srv) (agrees : room.session.Agrees)
    (seated : ∃ i c, room.session.players i = some c) :
    Ends allowed (srv.endGame s) (Shows base s room.empty) := by
  refine (shows_.endGameFor 0).bind fun srv₁ shows₁ => ?_
  refine (shows₁.endGameFor 1).mono fun srv₂ shows₂ => ?_
  cases first : room.session.players 0 with
  | none =>
      have ⟨i, c, here⟩ := seated
      have second : (room.session.players 1).isSome = true := by
        fin_cases i <;> simp_all
      -- He is alone, so the session waits for a player.
      have waiting : room.session.state = .waitPlayer :=
        agrees.2.1.mp (by simp [Session.getPlayersCount, first, second])
      simpa [first, second, leave_last shows_ (i := 1) waiting first] using shows₂
  | some c =>
      have left : (room.leave 0).session.players 0 = none := by simp [Session.freeSlot]
      simp only [first, Option.isSome_some, ↓reduceIte] at shows₁ shows₂
      cases second : room.session.players 1 with
      | none =>
          have waiting : room.session.state = .waitPlayer :=
            agrees.2.1.mp (by simp [Session.getPlayersCount, first, second])
          simpa [Session.freeSlot, second, leave_last shows_ (i := 0) waiting second] using shows₂
      | some d =>
          have two : room.session.getPlayersCount = 2 := by
            simp [Session.getPlayersCount, first, second]
          have waiting : (room.leave 0).session.state = .waitPlayer := by
            simp [Session.freeSlot, (agrees.2.2.mp two).2]
          have last := leave_last shows₁ (i := 1) waiting left
          have same : (room.leave 0).empty = room.empty := by
            refine Room.ext ?_ rfl rfl
            simp [Session.freeSlot]
          simpa [Session.freeSlot, second, last, same] using shows₂

end Server
end Battleship
