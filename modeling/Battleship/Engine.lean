import Battleship.StaleTimers

/-! A game from its start to its end: what the two players, their countdowns and
chance can make of two valid fields, as long as nobody leaves. -/
namespace Battleship

open Runs

namespace GameField

/-- Cells of ships that were not hit. -/
abbrev whole (f : GameField) : Nat := f.count CellState.unharmed.toCell

abbrev damaged (f : GameField) : Nat := f.count CellState.damaged.toCell

theorem valid_damaged {f : GameField} (valid : f.isValidStartField = true) : f.damaged = 0 := by
  by_contra some
  obtain ⟨y, x, cell⟩ := (count_pos_iff f _).mp (Nat.pos_of_ne_zero some)
  rcases isValidStartField_cells valid y x with water | ship <;>
    simp_all [CellState.toCell]

theorem whole_untried {f : GameField} (afloat : 0 < f.whole) : ∃ point, f.Untried point := by
  obtain ⟨y, x, ship⟩ := (count_pos_iff f _).mp afloat
  have inside := inside_cell y x
  refine ⟨⟨(x.val : Int), (y.val : Int)⟩, inside, Or.inr (getState_unharmed.mpr ⟨inside, ?_⟩)⟩
  rw [at'_cell]
  exact ship

end GameField

namespace Session

structure ShotAt (session session' : Session) (point : Point) (shotRes : CellState) : Prop where
  untried : (session.fields session.enemyIdx).Untried point
  registered : (session.fields session.enemyIdx).registerShot point =
    (shotRes, session'.fields session.enemyIdx)
  own : session'.fields session.curTurnPlayerIdx = session.fields session.curTurnPlayerIdx
  passes : session'.curTurnPlayerIdx ≠ session.curTurnPlayerIdx ↔ shotRes = .missed

theorem enemyIdx_ne (session : Session) : session.curTurnPlayerIdx ≠ session.enemyIdx := by
  unfold enemyIdx
  generalize session.curTurnPlayerIdx = i
  fin_cases i <;> decide

theorem nextTurn_turn (session : Session) (shotRes : CellState) :
    (session.nextTurn shotRes).curTurnPlayerIdx ≠ session.curTurnPlayerIdx ↔
      shotRes ≠ .damaged := by
  unfold nextTurn
  split_ifs with missed
  · exact iff_of_true session.enemyIdx_ne.symm missed
  · simpa using missed

end Session

theorem GameField.shot_result {f g : GameField} {point : Point} {shotRes : CellState}
    (untried : f.Untried point) (registered : f.registerShot point = (shotRes, g)) :
    shotRes = .missed ∨ shotRes = .damaged := by
  obtain ⟨inside, water | whole⟩ := untried
  · rw [registerShot_missed f point inside water] at registered
    exact Or.inl (Prod.mk.inj registered).1.symm
  · obtain ⟨h, shot, _⟩ := registerShot_damaged f point whole
    rw [shot] at registered
    exact Or.inr (Prod.mk.inj registered).1.symm

namespace Room

theorem Step.shot {draws : List Nat} {room room' : Room}
    (step : Step (.fire .changeTurn draws) room room')
    (state : room.session.state = .processTurn)
    (alive : 0 < (room.session.fields room.session.enemyIdx).whole) :
    ∃ point shotRes, room.session.ShotAt room'.session point shotRes ∧
      room'.session.lastShot = noShot ∧
      (room.session.lastShot ≠ noShot →
        (room.session.fields room.session.enemyIdx).Untried room.session.lastShot →
        point = room.session.lastShot) ∧
      (room.session.lastShot = noShot ∨
        ¬ (room.session.fields room.session.enemyIdx).Untried room.session.lastShot →
        point ∈ Session.drawnPoints draws) := by
  cases step with
  | expire pending late => exact absurd state late
  | @gameOver _ h h' _ shotRes session pending _ shot finished =>
      obtain ⟨point, field, untried, registered, rfl, first, drawn⟩ :=
        Session.registerShot_spec shot
      refine ⟨point, shotRes, ⟨untried, by simp [registered], ?_, ?_⟩, rfl, first, drawn⟩
      · simp [room.session.enemyIdx_ne]
      -- The turn does not change, and the shot that ends the game is a hit.
      · refine iff_of_false (fun moved => moved rfl) fun missed => ?_
        obtain ⟨lost, _⟩ := GameField.registerShot_count
          (room.session.fields room.session.enemyIdx) point
        have sunk : field.count 1 = 0 := by
          have := (GameField.allShipsDestroyed_iff _).mp finished
          simpa [Session.enemyIdx] using this
        rw [registered] at lost
        simp only [missed, reduceCtorEq, ↓reduceIte, Nat.add_zero, sunk] at lost
        exact absurd lost.symm (Nat.ne_of_gt alive)
  | @changeTurn _ h h' _ shotRes session pending _ shot ongoing =>
      obtain ⟨point, field, untried, registered, rfl, first, drawn⟩ :=
        Session.registerShot_spec shot
      refine ⟨point, shotRes, ⟨untried, by simp [registered], ?_, ?_⟩, by simp, first, drawn⟩
      · simp [room.session.enemyIdx_ne]
      · have result := GameField.shot_result untried registered
        simp only [startTurn_session, withSession_session]
        refine (Session.nextTurn_turn _ shotRes).trans ?_
        rcases result with missed | hit <;> simp [*]

structure Ongoing (told₀ : PlayerIdx → List GameState) (room : Room) : Prop where
  countdown : (room.session.state = .gameTurn ∧ room.session.lastShot = noShot ∧
      ∃ t, room.session.turnTimeout = some t ∧ room.pending = {(t, .gameTurn)}) ∨
    (room.session.state = .processTurn ∧ ∃ h, room.pending = {(h, .changeTurn)})
  whole : ∀ i, 0 < (room.session.fields i).whole
  wins : ∀ i, (room.told i).count .winGame = (told₀ i).count .winGame
  losses : ∀ i, (room.told i).count .loseGame = (told₀ i).count .loseGame

structure Finished (told₀ : PlayerIdx → List GameState) (room : Room) : Prop where
  state : room.session.state = .processTurn
  countdown : ∃ h, room.pending = {(h, .endGame)}
  sunk : (room.session.fields room.session.enemyIdx).whole = 0
  whole : 0 < (room.session.fields room.session.curTurnPlayerIdx).whole
  wins : ∀ i, (room.told i).count .winGame = (told₀ i).count .winGame +
    if i = room.session.curTurnPlayerIdx then 1 else 0
  losses : ∀ i, (room.told i).count .loseGame = (told₀ i).count .loseGame +
    if i = room.session.enemyIdx then 1 else 0

/-- The invariant of a game that was started in `room₀`. -/
structure InGame (room₀ room : Room) : Prop where
  players : room.session.players = room₀.session.players
  full : room.session.Full
  cells : ∀ i, (room.session.fields i).whole + (room.session.fields i).damaged = 18
  progress : room.Ongoing room₀.told ∨ room.Finished room₀.told

def GameAction : Action → Prop
  | .idle => True
  | .move _ => True
  | .fire kind _ => kind = .gameTurn ∨ kind = .changeTurn
  | _ => False

theorem InGame.playing {room₀ room : Room} (game : room₀.InGame room) : room.session.Playing := by
  rcases game.progress with ⟨⟨turn, _⟩ | ⟨process, _⟩, _⟩ | finished
  · exact Or.inl turn
  · exact Or.inr process
  · exact Or.inr finished.state

theorem without_only {room : Room} {h : HandlerId} {kind : TimeoutKind}
    (only : room.pending = {(h, kind)}) : (room.without h).pending = ∅ := by
  refine Set.eq_empty_iff_forall_notMem.mpr fun p inside => inside.2 ?_
  have member := inside.1
  rw [only] at member
  exact congrArg Prod.fst member

theorem arm_only {room : Room} (none : room.pending = ∅) (h : HandlerId) (kind : TimeoutKind) :
    (room.arm h kind).pending = {(h, kind)} := by
  simp [arm, none]

theorem shot_fields {session session' : Session} {draws : List Nat} {shotRes : CellState}
    (shot : session.registerShot draws = some (shotRes, session'))
    (cells : ∀ i, (session.fields i).whole + (session.fields i).damaged = 18) (i : PlayerIdx) :
    (session'.fields i).whole + (session'.fields i).damaged = 18 ∧
      (i = session.curTurnPlayerIdx → session'.fields i = session.fields i) := by
  obtain ⟨point, field, untried, registered, rfl, _⟩ := Session.registerShot_spec shot
  by_cases enemy : i = session.enemyIdx
  · obtain ⟨lost, gained⟩ := GameField.registerShot_count (session.fields i) point
    have before := cells i
    refine ⟨?_, fun own => absurd (own.symm.trans enemy) session.enemyIdx_ne⟩
    rw [enemy] at lost gained before ⊢
    rw [registered] at lost gained
    simp only [Function.update_self]
    simp only [GameField.whole, GameField.damaged, CellState.toCell] at before ⊢
    split_ifs at lost gained <;> simp only at lost gained <;> omega
  · simp [enemy, cells i]

theorem tellResult_wins (room : Room) (i : PlayerIdx) :
    (room.tellResult.told i).count .winGame = (room.told i).count .winGame +
      (if i = room.session.curTurnPlayerIdx then 1 else 0) ∧
    (room.tellResult.told i).count .loseGame = (room.told i).count .loseGame +
      (if i = room.session.enemyIdx then 1 else 0) := by
  unfold tellResult tell Session.enemyIdx
  generalize room.session.curTurnPlayerIdx = own
  fin_cases own <;> fin_cases i <;> simp [getEnemyIdx]

/-- The countdown of a shot fires in a game that goes on, and it is the only one. -/
theorem InGame.at_shot {room₀ room : Room} (game : room₀.InGame room) {h : HandlerId} (pending : (h, .changeTurn) ∈ room.pending) :
    room.Ongoing room₀.told ∧ (room.without h).pending = ∅ := by
  rcases game.progress with ongoing | ⟨_, ⟨t, only⟩, _⟩
  · rcases ongoing.countdown with ⟨_, _, t, _, only⟩ | ⟨_, t, only⟩
    · rw [only] at pending
      cases (Prod.mk.inj pending).2
    · have alone : room.pending = {(h, .changeTurn)} := by
        rw [only] at pending ⊢
        rw [(Prod.mk.inj pending).1]
      exact ⟨ongoing, without_only alone⟩
  · rw [only] at pending
    cases (Prod.mk.inj pending).2

theorem Step.inGame {action : Action} {room room' : Room} (step : Step action room room')
    {room₀ : Room} (game : room₀.InGame room) (allowed : GameAction action) :
    room₀.InGame room' := by
  have ⟨players, full, cells, progress⟩ := game
  cases step with
  | idle => exact game
  | joinFirst | joinSecond | leave | ask | submit => cases allowed
  | stopPreparation | fieldsAccepted | oneLeft | noneLeft | startGame | endGame =>
      rcases allowed with kind | kind <;> cases kind
  -- The move ends the turn: its handler is stopped and the next one registered.
  | @move _ point t h turn clear running fresh =>
      rcases progress with ⟨⟨_, _, t', runs, only⟩ | ⟨process, _⟩, whole, wins, losses⟩ | finished
      · obtain rfl := Option.some.inj (running.symm.trans runs)
        refine ⟨players, full, cells, Or.inl ⟨Or.inr ⟨rfl, h, arm_only (without_only only) _ _⟩, whole,
          fun i => ?_, fun i => ?_⟩⟩ <;> simp [wins i, losses i]
      · cases turn.symm.trans process
      · cases turn.symm.trans finished.state
  | lateMove turn clear =>
      refine ⟨players, full, cells, ?_⟩
      rcases progress with ⟨⟨state, _⟩ | process, whole, wins, losses⟩ |
        ⟨state, countdown, sunk, whole, wins, losses⟩
      · cases turn.symm.trans state
      · exact Or.inl ⟨Or.inr process, whole, wins, losses⟩
      · exact Or.inr ⟨state, countdown, sunk, whole, wins, losses⟩
  | @expire _ h kind _ pending late =>
      -- In a game the only countdown fits the state, so none comes too late.
      exfalso
      rcases progress with ⟨⟨turn, _, t, _, only⟩ | ⟨process, t, only⟩, _⟩ | ⟨_, ⟨t, only⟩, _⟩
      · rw [only] at pending
        obtain ⟨rfl, rfl⟩ := Prod.mk.inj pending
        exact late turn
      · rw [only] at pending
        obtain ⟨rfl, rfl⟩ := Prod.mk.inj pending
        exact late process
      · rw [only] at pending
        obtain ⟨rfl, rfl⟩ := Prod.mk.inj pending
        rcases allowed with kind | kind <;> cases kind
  | @endTurn _ t h h' _ pending state running fresh =>
      rcases progress with ⟨⟨_, _, t', runs, only⟩ | ⟨process, _⟩, whole, wins, losses⟩ | finished
      · obtain rfl := Option.some.inj (running.symm.trans runs)
        rw [only] at pending
        obtain ⟨rfl, _⟩ := Prod.mk.inj pending
        have none : (((room.without h).without h)).pending = ∅ :=
          Set.eq_empty_of_subset_empty fun p inside => without_only only ▸ inside.1
        refine ⟨players, full, cells, Or.inl ⟨Or.inr ⟨rfl, h', arm_only none _ _⟩, whole,
          fun i => ?_, fun i => ?_⟩⟩ <;> simp [wins i, losses i]
      · cases state.symm.trans process
      · cases state.symm.trans finished.state
  | @gameOver _ h h' _ shotRes session pending state shot finished fresh =>
      obtain ⟨⟨_, whole, wins, losses⟩, alone⟩ := game.at_shot pending
      have fields := shot_fields shot cells
      have sunk := (GameField.allShipsDestroyed_iff _).mp finished
      obtain ⟨changed, rfl⟩ := Session.registerShot_frame shot
      have told := tellResult_wins ((room.without h).withSession
        { room.session with fields := changed, lastShot := noShot })
      refine ⟨players, full, fun i => (fields i).1, Or.inr ⟨state, ⟨h', arm_only alone _ _⟩, sunk, ?_,
        fun i => ?_, fun i => ?_⟩⟩
      · have own := (fields room.session.curTurnPlayerIdx).2 rfl
        exact (congrArg GameField.whole own).symm ▸ whole _
      · exact (told i).1.trans (congrArg (· + _) (wins i))
      · exact (told i).2.trans (congrArg (· + _) (losses i))
  | @changeTurn _ h h' _ shotRes session pending state shot ongoing fresh =>
      obtain ⟨⟨_, whole, wins, losses⟩, alone⟩ := game.at_shot pending
      have fields := shot_fields shot cells
      -- A cell of the enemy is still whole, or the game would be over.
      have afloat : (session.fields session.enemyIdx).count 1 ≠ 0 := by
        intro sunk
        cases ((GameField.allShipsDestroyed_iff _).mpr sunk).symm.trans ongoing
      obtain ⟨changed, rfl⟩ := Session.registerShot_frame shot
      refine ⟨?_, fun i => ?_, fun i => ?_, Or.inl ⟨Or.inl ⟨rfl, by simp, h', rfl, ?_⟩,
        fun i => ?_, fun i => ?_, fun i => ?_⟩⟩
      · simpa using players
      · simpa using full i
      · simpa using (fields i).1
      · exact arm_only alone _ _
      · simp only [startTurn_session, withSession_session, Session.nextTurn_fields]
        by_cases enemy : i = room.session.enemyIdx
        · exact enemy ▸ Nat.pos_of_ne_zero afloat
        · have own : i = room.session.curTurnPlayerIdx := by
            revert enemy
            unfold Session.enemyIdx
            generalize room.session.curTurnPlayerIdx = own
            fin_cases own <;> fin_cases i <;> simp [getEnemyIdx]
          exact (congrArg GameField.whole ((fields i).2 own)).symm ▸ whole i
      · simp [wins i]
      · simp [losses i]

theorem Step.moveSet {action : Action} {room room' : Room} (step : Step action room room')
    (allowed : GameAction action) :
    room'.session.lastShot = room.session.lastShot ∨
      (action = .move room'.session.lastShot ∧ room.session.lastShot = noShot) ∨
      ((∃ draws, action = .fire .changeTurn draws) ∧ room.session.state = .processTurn) := by
  cases step with
  | idle | expire | endTurn => exact Or.inl rfl
  | joinFirst | joinSecond | leave | ask | submit => cases allowed
  | stopPreparation | fieldsAccepted | oneLeft | noneLeft | startGame | endGame =>
      rcases allowed with kind | kind <;> cases kind
  | move turn clear => exact Or.inr (Or.inl ⟨rfl, clear⟩)
  | lateMove turn clear => exact Or.inr (Or.inl ⟨rfl, clear⟩)
  | gameOver pending state | changeTurn pending state => exact Or.inr (Or.inr ⟨⟨_, rfl⟩, state⟩)

/-- A game is started with two valid fields, and nothing else is pending. -/
theorem Step.starts {draws : List Nat} {room room' : Room} {h : HandlerId}
    (step : Step (.fire .gameStart draws) room room') (full : room.session.Full)
    (state : room.session.state = .waitStart)
    (valid : ∀ i, (room.session.fields i).isValidStartField = true)
    (clear : room.session.lastShot = noShot) (only : room.pending = {(h, .gameStart)}) :
    room.InGame room' ∧ room'.session.lastShot = noShot := by
  have ships (i : PlayerIdx) : (room.session.fields i).whole = 18 :=
    GameField.count_validStartField (valid i)
  have hits (i : PlayerIdx) : (room.session.fields i).damaged = 0 :=
    GameField.valid_damaged (valid i)
  cases step with
  | expire pending late => exact absurd state late
  | @startGame _ t h' first _ pending was fresh =>
      rw [only] at pending
      obtain ⟨rfl, -⟩ := Prod.mk.inj pending
      refine ⟨⟨rfl, full, fun i => ?_, Or.inl ⟨Or.inl ⟨rfl, clear, h', rfl, ?_⟩,
        fun i => ?_, fun i => ?_, fun i => ?_⟩⟩, clear⟩
      · simp [ships i, hits i]
      · exact arm_only (without_only only) _ _
      · simp [ships i]
      · simp
      · simp

end Room

namespace Server

/-- An event of a game in session `s`: its players only send moves and stay, and of its
handlers only those of the turns fire. Elsewhere on the server anything happens. -/
def GameEvent (s : SessionId) (srv : Server) : Event → Prop
  | .accept => True
  | .message c msg _ => srv.gameSessionOf c = some s → ∃ x y, msg.body = .gameMove x y
  | .broken c => srv.gameSessionOf c ≠ some s
  | .timer id _ _ _ _ => ∀ handler ∈ srv.timeoutHandlers, handler.id = id →
      handler.session = s → handler.kind = .gameTurn ∨ handler.kind = .changeTurn

/-- `change_turn_player` gets past its guard. -/
def IsShot (s : SessionId) (srv : Server) (e : Event) : Prop :=
  ∃ handler ∈ srv.timeoutHandlers, ∃ sec usec now draws,
    e = .timer handler.id sec usec now draws ∧ handler.session = s ∧
      handler.kind = .changeTurn ∧ (handler.timer.process sec usec).1 = true ∧
      (srv.sessions s).state = .processTurn

def turnMove (s : SessionId) (srv : Server) : Event → Option Point
  | .message c msg _ =>
      match msg.body with
      | .gameMove x y =>
          if (srv.sessions s).Playing ∧
              (srv.sessions s).players (srv.sessions s).curTurnPlayerIdx = some c ∧
              (⟨x.toInt, y.toInt⟩ : Point) ≠ noShot then
            some ⟨x.toInt, y.toInt⟩
          else none
      | _ => none
  | _ => none

/-- `first` is the first such move of the run after its last shot, if there is one. -/
inductive FirstMove (s : SessionId) (srv₀ : Server) : Option Point → List Event → Prop where
  | start : FirstMove s srv₀ none []
  | shot {es : List Event} {e : Event} {srv : Server} (done : run srv₀ es = .ok srv)
      (shot : IsShot s srv e) : FirstMove s srv₀ none (es ++ [e])
  | next {es : List Event} {e : Event} {srv : Server} {first : Option Point}
      (before : FirstMove s srv₀ first es) (done : run srv₀ es = .ok srv)
      (quiet : ¬ IsShot s srv e) : FirstMove s srv₀ (first.or (turnMove s srv e)) (es ++ [e])

theorem step_shot {srv srv' : Server} (inv : srv.Inv) {s : SessionId} {e : Event}
    (shot : IsShot s srv e) (done : srv.step e = .ok srv') :
    ∃ id sec usec now draws, e = .timer id sec usec now draws ∧
      Room.Step (.fire .changeTurn draws) (srv.room s) (srv'.room s) := by
  obtain ⟨handler, member, sec, usec, now, draws, rfl, rfl, kind, fired, _⟩ := shot
  rw [step_timer inv.sound.handlers member] at done
  obtain ⟨room', room, shows_⟩ := (processTimeout_fired inv member fired now draws).elim done
  refine ⟨_, sec, usec, now, draws, rfl, ?_⟩
  rw [shows_.here, ← kind]
  exact room

/-- An event of a game that is no shot does a step the game allows. -/
theorem game_action {srv srv' : Server} (inv : srv.Inv) {s : SessionId} {e : Event}
    (full : (srv.sessions s).Full) (event : GameEvent s srv e) (done : srv.step e = .ok srv') :
    ∃ action, srv.Caused e s action ∧ Room.GameAction action ∧
      Room.Step action (srv.room s) (srv'.room s) := by
  obtain ⟨action, caused, room⟩ := ((step_follows inv e).elim done).steps s
  have sits {i : PlayerIdx} {c : ClientId} (seated : (srv.sessions s).players i = some c) :=
    gameSessionOf_eq.mpr (inv.sound.seats.seat s i c seated)
  refine ⟨action, caused, ?_, room⟩
  cases action with
  | idle | move => trivial
  | join i c =>
      obtain ⟨d, seated⟩ := full i
      cases room.join_free.symm.trans seated
  | leave i =>
      obtain ⟨c, rfl, seated⟩ := caused
      exact absurd (sits seated) event
  | ask i =>
      obtain ⟨c, msg, now, rfl, seated, body⟩ := caused
      obtain ⟨x, y, move⟩ := event (sits seated)
      cases body.symm.trans move
  | submit i field =>
      obtain ⟨c, msg, now, own, rfl, seated, body⟩ := caused
      obtain ⟨x, y, move⟩ := event (sits seated)
      cases body.symm.trans move
  | fire kind draws =>
      obtain ⟨handler, member, sec, usec, now, rfl, owned, rfl, _⟩ := caused
      exact event handler member rfl owned

theorem turnMove_some {s : SessionId} {srv : Server} {e : Event} {point : Point}
    (sent : turnMove s srv e = some point) : ∃ c msg now x y, e = .message c msg now ∧
      msg.body = .gameMove x y ∧ (srv.sessions s).Playing ∧
      (srv.sessions s).players (srv.sessions s).curTurnPlayerIdx = some c ∧ point ≠ noShot ∧
      point = ⟨x.toInt, y.toInt⟩ := by
  cases e with
  | message c msg now =>
      cases body : msg.body with
      | gameMove x y =>
          simp only [turnMove, body] at sent
          split_ifs at sent with moves
          obtain rfl := Option.some.inj sent
          exact ⟨c, msg, now, x, y, rfl, body, moves.1, moves.2.1, moves.2.2, rfl⟩
      | _ => simp [turnMove, body] at sent
  | _ => cases sent

theorem game_move {srv srv' : Server} (inv : srv.Inv) {s : SessionId} {e : Event}
    {room₀ : Room} (game : room₀.InGame (srv.room s)) (event : GameEvent s srv e) (quiet : ¬ IsShot s srv e) (done : srv.step e = .ok srv')
    {first : Option Point} (set : (srv.sessions s).lastShot = first.getD noShot)
    (real : first ≠ some noShot) :
    (srv'.sessions s).lastShot = (first.or (turnMove s srv e)).getD noShot ∧
      first.or (turnMove s srv e) ≠ some noShot := by
  obtain ⟨action, caused, allowed, room⟩ := game_action inv game.full event done
  -- A shot would clear the move, but this step is none.
  have noShotFired (draws : List Nat) (fires : action = .fire .changeTurn draws)
      (state : (srv.sessions s).state = .processTurn) : False := by
    subst fires
    obtain ⟨handler, member, sec, usec, now, rfl, owned, kind, fired⟩ := caused
    exact quiet ⟨handler, member, sec, usec, now, draws, rfl, owned, kind, fired, state⟩
  cases first with
  | some q =>
      have busy : (srv.sessions s).lastShot ≠ noShot := by
        rw [set]
        exact fun same => real (congrArg some same)
      refine ⟨?_, real⟩
      rcases room.moveSet allowed with kept | ⟨_, clear⟩ | ⟨⟨draws, fires⟩, state⟩
      · exact kept.trans set
      -- A set move is not replaced.
      · exact absurd clear busy
      · exact (noShotFired draws fires state).elim
  | none =>
      have clear : (srv.sessions s).lastShot = noShot := set
      simp only [Option.none_or]
      cases sent : turnMove s srv e with
      | some point =>
          obtain ⟨c, msg, now, x, y, rfl, body, playing, own, other, rfl⟩ := turnMove_some sent
          obtain ⟨room', moved, shows_⟩ := (step_moves inv own playing clear body now).elim done
          refine ⟨?_, fun same => other (Option.some.inj same)⟩
          rw [shows_.session]
          exact moved.move_lastShot
      | none =>
          refine ⟨?_, nofun⟩
          rcases room.moveSet allowed with kept | ⟨moves, _⟩ | ⟨⟨draws, fires⟩, state⟩
          · exact kept.trans clear
          · rw [moves] at caused
            obtain ⟨c, msg, now, x, y, rfl, own, body, here⟩ := caused
            by_contra other
            have here : (srv'.sessions s).lastShot = ⟨x.toInt, y.toInt⟩ := here
            rw [here] at other
            simp [turnMove, body, own] at sent
            exact other (sent game.playing)
          · exact (noShotFired draws fires state).elim

theorem IsShot.pending {s : SessionId} {srv : Server} {e : Event} (shot : IsShot s srv e) :
    (∃ h, (h, .changeTurn) ∈ (srv.room s).pending) ∧ (srv.sessions s).state = .processTurn := by
  obtain ⟨handler, member, _, _, _, _, _, owned, kind, fired, state⟩ := shot
  exact ⟨⟨handler.id, handler, member, rfl, kind, owned, (TimeoutHandler.process_fired fired).1⟩,
    state⟩

theorem game_shot {srv srv' : Server} (inv : srv.Inv) {s : SessionId} {room₀ : Room}
    (game : room₀.InGame (srv.room s)) {id : HandlerId} {sec usec : Int} {now : Int64}
    {draws : List Nat} (shot : IsShot s srv (.timer id sec usec now draws))
    (done : srv.step (.timer id sec usec now draws) = .ok srv') :
    ∃ point shotRes, (srv.sessions s).ShotAt (srv'.sessions s) point shotRes ∧
      (srv'.sessions s).lastShot = noShot ∧
      ((srv.sessions s).lastShot ≠ noShot →
        ((srv.sessions s).fields (srv.sessions s).enemyIdx).Untried (srv.sessions s).lastShot →
        point = (srv.sessions s).lastShot) ∧
      ((srv.sessions s).lastShot = noShot ∨
        ¬ ((srv.sessions s).fields (srv.sessions s).enemyIdx).Untried (srv.sessions s).lastShot →
        point ∈ Session.drawnPoints draws) := by
  obtain ⟨⟨h, pending⟩, state⟩ := shot.pending
  obtain ⟨_, _, _, _, draws', same, fired⟩ := step_shot inv shot done
  obtain ⟨-, -, -, -, rfl⟩ := Event.timer.inj same
  exact fired.shot state ((game.at_shot pending).1.whole _)

theorem game_run {srv₁ srv : Server} (inv : srv₁.Inv) {s : SessionId} {room₀ : Room}
    (game : room₀.InGame (srv₁.room s)) (clear : (srv₁.sessions s).lastShot = noShot)
    {es : List Event} (done : run srv₁ es = .ok srv)
    (events : AllSteps step (GameEvent s) srv₁ es) :
    srv.Inv ∧ room₀.InGame (srv.room s) ∧ ∃ first, FirstMove s srv₁ first es ∧
      (srv.sessions s).lastShot = first.getD noShot ∧ first ≠ some noShot := by
  revert events
  refine run_history step (fun es srv => AllSteps step (GameEvent s) srv₁ es →
    srv.Inv ∧ room₀.InGame (srv.room s) ∧ ∃ first, FirstMove s srv₁ first es ∧
      (srv.sessions s).lastShot = first.getD noShot ∧ first ≠ some noShot) ?_ ?_ done
  · exact fun _ => ⟨inv, game, none, .start, clear, nofun⟩
  intro es srv e srv' before ih stepped events
  obtain ⟨earlier, event⟩ := (AllSteps.snoc step before).mp events
  obtain ⟨inv, game, first, moves, set, real⟩ := ih earlier
  obtain ⟨action, caused, allowed, room⟩ := game_action inv game.full event stepped
  refine ⟨step_inv inv stepped, room.inGame game allowed, ?_⟩
  by_cases shot : IsShot s srv e
  · obtain ⟨_, _, _, _, _, rfl, _⟩ := step_shot inv shot stepped
    obtain ⟨_, _, _, clear', _⟩ := game_shot inv game shot stepped
    exact ⟨none, .shot before shot, clear', nofun⟩
  · obtain ⟨set', real'⟩ := game_move inv game event shot stepped set real
    exact ⟨_, moves.next before shot, set', real'⟩

/-- The shot of a turn is registered as soon as an untried cell is drawn. -/
theorem shot_returns {srv : Server} (inv : srv.Inv) {s : SessionId} {id : HandlerId}
    {sec usec : Int} {now : Int64} {draws : List Nat} {point : Point}
    (shot : IsShot s srv (.timer id sec usec now draws))
    (drawn : point ∈ ((srv.sessions s).tries draws).dropLast)
    (untried : ((srv.sessions s).fields (srv.sessions s).enemyIdx).Untried point) :
    ∃ srv', srv.step (.timer id sec usec now draws) = .ok srv' := by
  obtain ⟨handler, member, _, _, _, _, same, rfl, kind, fired, state⟩ := shot
  obtain ⟨rfl, rfl, rfl, rfl, rfl⟩ := Event.timer.inj same
  rw [step_timer inv.sound.handlers member]
  refine processTimeout_returns inv member now fun _ _ short => ?_
  rcases short with ⟨start, _⟩ | ⟨_, exhausted⟩
  · cases kind.symm.trans start
  · exact Session.registerShot_returns drawn untried exhausted

def toldTimes (srv : Server) (c : ClientId) (state : GameState) : Nat :=
  (news (srv.toSendMsg c)).count state

theorem room_told {srv : Server} {s : SessionId} {i : PlayerIdx} {c : ClientId}
    (seated : (srv.sessions s).players i = some c) (state : GameState) :
    ((srv.room s).told i).count state = srv.toldTimes c state := by
  simp [room, seated, toldTimes]

/-- The shots of a run of a game: each is one successful shot, at the first move of the
turn or a drawn point, and passes the turn if it misses; some untried cell is left to
be drawn, and once one is drawn the shot is registered. -/
def ShotsRight (s : SessionId) (srv₁ : Server) (es : List Event) : Prop :=
  ∀ before id sec usec now draws rest t,
    es = before ++ .timer id sec usec now draws :: rest → run srv₁ before = .ok t →
    IsShot s t (.timer id sec usec now draws) →
    (∃ point, ((t.sessions s).fields (t.sessions s).enemyIdx).Untried point) ∧
      (∀ draws', (∃ point ∈ ((t.sessions s).tries draws').dropLast,
        ((t.sessions s).fields (t.sessions s).enemyIdx).Untried point) →
        ∃ t', t.step (.timer id sec usec now draws') = .ok t') ∧
      ∃ first, FirstMove s srv₁ first before ∧
        ∀ t', t.step (.timer id sec usec now draws) = .ok t' →
          ∃ point shotRes, (t.sessions s).ShotAt (t'.sessions s) point shotRes ∧
            (∀ move, first = some move →
              ((t.sessions s).fields (t.sessions s).enemyIdx).Untried move → point = move) ∧
            ((∀ move, first = some move →
              ¬ ((t.sessions s).fields (t.sessions s).enemyIdx).Untried move) →
              point ∈ Session.drawnPoints draws)

/-- Either nobody has been told a result and both fleets are afloat, or one player has
been told once that he has won and the other once that he has lost, and the loser has
no whole cell and 18 damaged ones. -/
def ResultRight (s : SessionId) (srv₀ srv : Server) : Prop :=
  ((∀ i c, (srv.sessions s).players i = some c →
      srv.toldTimes c .winGame = srv₀.toldTimes c .winGame ∧
      srv.toldTimes c .loseGame = srv₀.toldTimes c .loseGame) ∧
    ∀ i, 0 < ((srv.sessions s).fields i).whole) ∨
  ∃ winner loser a b, winner ≠ loser ∧ (srv.sessions s).players winner = some a ∧
    (srv.sessions s).players loser = some b ∧
    srv.toldTimes a .winGame = srv₀.toldTimes a .winGame + 1 ∧
    srv.toldTimes a .loseGame = srv₀.toldTimes a .loseGame ∧
    srv.toldTimes b .winGame = srv₀.toldTimes b .winGame ∧
    srv.toldTimes b .loseGame = srv₀.toldTimes b .loseGame + 1 ∧
    ((srv.sessions s).fields loser).whole = 0 ∧ ((srv.sessions s).fields loser).damaged = 18 ∧
    0 < ((srv.sessions s).fields winner).whole

theorem game_shots {srv₁ : Server} (inv : srv₁.Inv) {s : SessionId} {room₀ : Room}
    (game : room₀.InGame (srv₁.room s)) (clear : (srv₁.sessions s).lastShot = noShot)
    {es : List Event} (events : AllSteps step (GameEvent s) srv₁ es) :
    ShotsRight s srv₁ es := by
  rintro before id sec usec now draws rest t rfl reached shot
  obtain ⟨inv, game, first, moves, set, real⟩ := game_run inv game clear reached
    (AllSteps.before step events)
  obtain ⟨⟨h, pending⟩, _⟩ := shot.pending
  have afloat := (game.at_shot pending).1.whole (t.sessions s).enemyIdx
  refine ⟨GameField.whole_untried afloat, fun draws' ⟨point, drawn, untried⟩ => ?_, first, moves,
    fun t' fired => ?_⟩
  · have shot' : IsShot s t (.timer id sec usec now draws') := by
      obtain ⟨handler, member, _, _, _, _, same, rest⟩ := shot
      obtain ⟨rfl, rfl, rfl, -, -⟩ := Event.timer.inj same
      exact ⟨handler, member, sec, usec, now, draws', rfl, rest⟩
    exact shot_returns inv shot' drawn untried
  · obtain ⟨point, shotRes, hit, _, atMove, atRandom⟩ := game_shot inv game shot fired
    refine ⟨point, shotRes, hit, fun move sent untried => ?_, fun useless => atRandom ?_⟩
    · subst sent
      have set : (t.sessions s).lastShot = move := set
      rw [← set]
      refine atMove (fun none => real ?_) (set ▸ untried)
      rw [← set, none]
    · cases first with
      | none => exact Or.inl set
      | some move =>
          have set : (t.sessions s).lastShot = move := set
          exact Or.inr (set ▸ useless move rfl)

/-- What a player of the game has been told, as the room tells it. -/
theorem game_result {srv₀ srv : Server} {s : SessionId}
    (game : (srv₀.room s).InGame (srv.room s)) : ResultRight s srv₀ srv := by
  have same : (srv.sessions s).players = (srv₀.sessions s).players := game.players
  have told {i : PlayerIdx} {c : ClientId} (seated : (srv.sessions s).players i = some c)
      (state : GameState) : srv.toldTimes c state = ((srv.room s).told i).count state ∧
        srv₀.toldTimes c state = ((srv₀.room s).told i).count state :=
    ⟨(room_told seated state).symm, (room_told (same ▸ seated) state).symm⟩
  rcases game.progress with ⟨_, whole, wins, losses⟩ | ⟨_, _, sunk, whole, wins, losses⟩
  · refine Or.inl ⟨fun i c seated => ?_, whole⟩
    rw [(told seated _).1, (told seated _).2, (told seated _).1, (told seated _).2]
    exact ⟨wins i, losses i⟩
  · obtain ⟨a, own⟩ := game.full (srv.sessions s).curTurnPlayerIdx
    obtain ⟨b, enemy⟩ := game.full (srv.sessions s).enemyIdx
    have other := (srv.sessions s).enemyIdx_ne
    refine Or.inr ⟨_, _, a, b, other, own, enemy, ?_, ?_, ?_, ?_, sunk, ?_, whole⟩
    · rw [(told own _).1, (told own _).2]
      exact (wins _).trans (by simp)
    · rw [(told own _).1, (told own _).2]
      exact (losses _).trans (by simp [other])
    · rw [(told enemy _).1, (told enemy _).2]
      exact (wins _).trans (by simp [other.symm])
    · rw [(told enemy _).1, (told enemy _).2]
      exact (losses _).trans (by simp)
    · have cells := game.cells (srv.sessions s).enemyIdx
      have sunk : ((srv.room s).session.fields (srv.sessions s).enemyIdx).whole = 0 := sunk
      rw [sunk] at cells
      simpa using cells

end Server

/-- A game from `start_game` on, whatever moves come and whatever numbers are drawn. -/
theorem game_engine_correct {srv₀ srv₁ srv : Server} (reachable : srv₀.Reachable) {s : SessionId}
    {handler : Handler} (member : handler ∈ srv₀.timeoutHandlers) (owned : handler.session = s)
    (kind : handler.kind = .gameStart) {sec usec : Int}
    (fires : (handler.timer.process sec usec).1 = true)
    (state : (srv₀.sessions s).state = .waitStart)
    (valid : ∀ i, ((srv₀.sessions s).fields i).isValidStartField = true)
    (clear : (srv₀.sessions s).lastShot = noShot)
    (alone : ∀ other ∈ srv₀.timeoutHandlers, other.session = s → other.elapsed = false →
      other = handler)
    {now : Int64} {draws : List Nat}
    (started : srv₀.step (.timer handler.id sec usec now draws) = .ok srv₁)
    {es : List Server.Event} (events : AllSteps Server.step (Server.GameEvent s) srv₁ es)
    (done : Server.run srv₁ es = .ok srv) :
    Server.ShotsRight s srv₁ es ∧ Server.ResultRight s srv₀ srv := by
  subst owned
  have inv := reachable.inv
  have full := (inv.good handler.session).agrees.full (by simp [state]) (by simp [state])
  have only : (srv₀.room handler.session).pending = {(handler.id, .gameStart)} := by
    refine Set.ext fun ⟨id, k⟩ => ⟨?_, ?_⟩
    · rintro ⟨other, inside, rfl, rfl, same, live⟩
      obtain rfl := alone other inside same live
      exact Prod.ext rfl kind
    · rintro same
      obtain ⟨rfl, rfl⟩ := Prod.mk.inj same
      exact ⟨handler, member, rfl, kind, rfl, (TimeoutHandler.process_fired fires).1⟩
  have stepped := started
  rw [Server.step_timer inv.sound.handlers member] at stepped
  obtain ⟨room, start, shows_⟩ :=
    (Server.processTimeout_fired inv member fires now draws).elim stepped
  rw [kind] at start
  obtain ⟨game, unset⟩ := start.starts full state valid clear only
  rw [← shows_.here] at game unset
  have inv₁ := Server.step_inv inv started
  obtain ⟨_, ended, _⟩ := Server.game_run inv₁ game unset done events
  exact ⟨Server.game_shots inv₁ game unset events, Server.game_result ended⟩

theorem game_engine_correct_opening :
    Server.ShotsRight 0 (Server.after opening) [.message 0 ⟨3, .gameMove 3 3⟩ 78,
        .timer 4 3 0 81 [1, 1]] ∧
      Server.ResultRight 0 (Server.after (opening.take 8)) (Server.after (opening ++
        [.message 0 ⟨3, .gameMove 3 3⟩ 78, .timer 4 3 0 81 [1, 1]])) := by
  have whole := Server.run_after (opening ++ ([.message 0 ⟨3, .gameMove 3 3⟩ 78] ++
    [.timer 4 3 0 81 [1, 1]])) (by decide +kernel)
  obtain ⟨srv₁, first, rest⟩ := (run_append_ok Server.step).mp whole
  have first' : Server.run Server.init (opening.take 8 ++ [.timer 2 3 0 77 [0]]) = .ok srv₁ := first
  obtain ⟨srv₀, ready, started⟩ := (run_snoc_ok Server.step).mp first'
  obtain ⟨srv₂, moved, shot⟩ := (run_snoc_ok Server.step).mp rest
  have here := (run_append_ok Server.step).mpr ⟨_, first, moved⟩
  obtain rfl := Server.after_eq first
  obtain rfl := Server.after_eq ready
  obtain rfl := Server.after_eq here
  obtain ⟨handler, member, id, owned, kind, fires⟩ :
      ∃ handler ∈ (Server.after (opening.take 8)).timeoutHandlers, handler.id = 2 ∧
        handler.session = 0 ∧ handler.kind = .gameStart ∧
        (handler.timer.process 3 0).1 = true := by
    decide +kernel
  have only : ∀ other ∈ (Server.after (opening.take 8)).timeoutHandlers, other.id = 2 := by
    decide +kernel
  rw [← id] at started
  have events : AllSteps Server.step (Server.GameEvent 0) (Server.after opening)
      ([.message 0 ⟨3, .gameMove 3 3⟩ 78] ++ [.timer 4 3 0 81 [1, 1]]) := by
    refine (AllSteps.snoc Server.step moved).mpr ⟨⟨fun _ => ⟨3, 3, rfl⟩, fun _ _ => trivial⟩, ?_⟩
    unfold Server.GameEvent
    decide +kernel
  exact game_engine_correct ⟨_, ready⟩ member owned kind fires
    (by decide +kernel) (by decide +kernel) (by decide +kernel)
    (fun other inside _ _ => (Server.run_inv ready).sound.handlers.unique other inside handler
      member ((only other inside).trans id.symm)) started events rest

end Battleship
