import Battleship.Knowledge

/-! The server and the player's screen together: what the screen of a player who has taken
all the messages queued for him shows of his session, whatever keys he has pressed, and
what becomes of a shot that the screen has let through. -/
namespace Battleship

open Runs Server

namespace Session

variable {session : Session} {i : PlayerIdx} {board : Board} {ui : NcursesInterface}

/-- The mode of the phase, with the cursor to be seen where it can be moved. Only a player
who has fired his shot is ahead of his session. -/
theorem Knows.mode (knows : session.Knows i board) (reflects : ui.Reflects board)
    {mode : InterfaceMode} (phase : session.modeFor i = some mode) :
    ui.mode = mode ∧ ui.cursorShown = acting mode ∨
      mode = .ownTurn ∧ ui.mode = .wait ∧ ui.cursorShown = false := by
  obtain ⟨same, shown⟩ := knows.phase mode phase
  rcases reflects.mode with plain | ⟨turn, wait, hidden⟩
  · left
    have mode' : ui.mode = mode := plain.trans same
    refine ⟨mode', ?_⟩
    cases acts : acting mode with
    | true =>
        apply reflects.seen
        rw [mode']
        exact of_decide_eq_true acts
    | false =>
        rw [acts] at shown
        by_contra visible
        have visible : ui.cursorShown = true := by simpa using visible
        cases shown.symm.trans (reflects.hidden visible)
  · right
    exact ⟨same.symm.trans turn, wait, hidden⟩

/-- A field of the other player that was sent is shown as it may be seen now. -/
theorem Knows.enemyField (knows : session.Knows i board) (reflects : ui.Reflects board)
    (playing : session.Playing) (sent : board.enemy ≠ none) :
    ui.enemyField = (session.fields (getEnemyIdx i)).getForEnemy := by
  obtain ⟨field, shown⟩ := Option.ne_none_iff_exists'.mp sent
  rw [reflects.enemy field shown, knows.seen playing field shown]

theorem Knows.ownField (knows : session.Knows i board) (reflects : ui.Reflects board)
    (playing : session.Playing) (sent : board.own ≠ none)
    (hit : (session.fields i).isValidStartField = false) : ui.ownField = session.fields i := by
  obtain ⟨field, shown⟩ := Option.ne_none_iff_exists'.mp sent
  rw [reflects.own field shown]
  rcases knows.owned playing field shown with same | ⟨_, valid⟩
  · exact same
  · cases hit.symm.trans valid

end Session

section Screen

variable {srv : Server} (reachable : srv.Reachable) {s : SessionId} {i : PlayerIdx} {c : ClientId}
  (seated : (srv.sessions s).players i = some c) {as : List Act}
  (caught : srv.sent c <:+ Board.loud (heard as))

include reachable seated caught in
/-- Who has taken the messages that were queued for him knows his session. -/
theorem knows_of_caught : (srv.sessions s).Knows i (Board.after (heard as)) := by
  obtain ⟨earlier, all⟩ := caught
  rw [← Board.after_loud, ← all, Board.after_append]
  exact reachable.tidings.knowing s i c _ seated

/-- A player who has taken the messages that are queued for him, whatever he heard before
and whatever keys he has pressed, is shown the phase of his session and whose turn it is,
and he sees the cursor exactly where he may move it. After his shot he waits. -/
theorem screen_shows_phase {srv : Server} (reachable : srv.Reachable) {s : SessionId}
    {i : PlayerIdx} {c : ClientId} (seated : (srv.sessions s).players i = some c)
    (clientFd : Nat) {as : List Act} (caught : srv.sent c <:+ Board.loud (heard as))
    {mode : InterfaceMode} (phase : (srv.sessions s).modeFor i = some mode) :
    let ui := ((BattleshipGame.init clientFd).acts as).interface
    ui.mode = mode ∧ ui.cursorShown = Session.acting mode ∨
      mode = .ownTurn ∧ ui.mode = .wait ∧ ui.cursorShown = false :=
  (knows_of_caught reachable seated caught).mode (acts_reflect clientFd as) phase

/-- He takes everything that is queued for him and presses no key. -/
def deliver (srv : Server) (c : ClientId) : List Act :=
  (srv.toSendMsg c).map fun msg => .message msg ⟨0, 0⟩

theorem heard_deliver (srv : Server) (c : ClientId) :
    srv.sent c <:+ Board.loud (heard (deliver srv c)) := by
  refine ⟨[], ?_⟩
  have all : heard (deliver srv c) = (srv.toSendMsg c).map Message.body := by
    unfold heard deliver
    rw [List.filterMap_map]
    exact congrFun (List.filterMap_eq_map (f := Message.body)) _
  rw [all, List.nil_append]
  rfl

theorem opening_seats :
    ((Server.after opening).sessions 0).players 0 = some 0 ∧
      ((Server.after opening).sessions 0).players 1 = some 1 ∧
      ((Server.after opening).sessions 0).state = .gameTurn ∧
      ((Server.after opening).sessions 0).curTurnPlayerIdx = 0 := by
  decide +kernel

theorem screen_shows_phase_opening :
    let ui := ((BattleshipGame.init 3).acts (deliver (Server.after opening) 1)).interface
    ui.mode = .enemyTurn ∧ ui.cursorShown = false := by
  obtain ⟨_, seated, state, turn⟩ := opening_seats
  have phase : ((Server.after opening).sessions 0).modeFor 1 = some .enemyTurn := by
    rw [Session.modeFor, state, turn]
    rfl
  rcases screen_shows_phase opening_reachable seated 3 (heard_deliver _ 1) phase with
    shown | ⟨own, _⟩
  · exact shown
  · cases own

/-- While a game is played his screen shows the other player's field exactly as the server
lets him see it, once that has been sent to him, and his own field exactly as the server
has it once a shot has landed there. -/
theorem screen_shows_fields {srv : Server} (reachable : srv.Reachable) {s : SessionId}
    {i : PlayerIdx} {c : ClientId} (seated : (srv.sessions s).players i = some c)
    (playing : (srv.sessions s).Playing) (clientFd : Nat) {as : List Act}
    (caught : srv.sent c <:+ Board.loud (heard as)) :
    let ui := ((BattleshipGame.init clientFd).acts as).interface
    ((Board.after (heard as)).enemy ≠ none →
        ui.enemyField = ((srv.sessions s).fields (getEnemyIdx i)).getForEnemy) ∧
      ((Board.after (heard as)).own ≠ none →
        ((srv.sessions s).fields i).isValidStartField = false →
        ui.ownField = (srv.sessions s).fields i) := by
  have knows := knows_of_caught reachable seated caught
  have reflects := acts_reflect clientFd as
  constructor
  · exact knows.enemyField reflects playing
  · exact knows.ownField reflects playing

theorem screen_shows_fields_opening :
    ((BattleshipGame.init 3).acts (deliver (Server.after opening) 1)).interface.enemyField =
      GameField.new := by
  obtain ⟨_, seated, state, _⟩ := opening_seats
  have shown := (screen_shows_fields opening_reachable seated (.inl state) 3 (heard_deliver _ 1)).1
    (by decide +kernel)
  rw [shown]
  decide +kernel

theorem act_enemyField (game : BattleshipGame) (a : Act) :
    (game.act a).interface.enemyField = game.interface.enemyField ∨
      a.body = some (.gameField (game.act a).interface.enemyField false) := by
  cases a with
  | key key =>
      left
      have step := BattleshipGame.pressed game key
      change (game.processKey key).interface.enemyField = _
      generalize game.processKey key = game' at step ⊢
      cases step <;> rfl
  | message msg read =>
      have acted : game.act (.message msg read) = game.processMsg msg read := rfl
      rw [acted]
      unfold BattleshipGame.processMsg
      cases body : msg.body with
      | gameField field isOwnField =>
          cases isOwnField with
          | true => exact .inl rfl
          | false => exact .inr (congrArg some body)
      | startTurn endTime isOwn => cases isOwn <;> exact .inl rfl
      | stopTurn isOwn => cases isOwn <;> exact .inl rfl
      | stopPreparation =>
          left
          dsimp only [BattleshipGame.processStopPreparationMsg, BattleshipGame.put]
          unfold NcursesInterface.stopPreparationMode
          split_ifs <;> rfl
      | _ => exact .inl rfl

/-- The enemy's field on the screen is the empty one of the start, or came in a message. -/
theorem enemyField_heard (clientFd : Nat) (as : List Act) :
    ((BattleshipGame.init clientFd).acts as).interface.enemyField = GameField.new ∨
      .gameField ((BattleshipGame.init clientFd).acts as).interface.enemyField false ∈ heard as := by
  induction as using List.reverseRecOn with
  | nil => exact .inl rfl
  | append_singleton as a ih =>
      rw [BattleshipGame.acts_snoc]
      rcases act_enemyField ((BattleshipGame.init clientFd).acts as) a with kept | heard_
      · rw [kept]
        refine ih.imp_right fun member => ?_
        rw [heard, List.filterMap_append]
        exact List.mem_append_left _ member
      · right
        rw [heard, List.filterMap_append]
        exact List.mem_append_right _ (List.mem_filterMap.mpr ⟨a, List.mem_singleton_self a, heard_⟩)

theorem hides_queued {srv : Server} (reachable : srv.Reachable) {c : ClientId} {msg : Message}
    (queued : msg ∈ srv.toSendMsg c) {field : GameField}
    (body : msg.body = .gameField field false) (y x : Fin fldSz) :
    field.field y x ≠ CellState.unharmed.toCell := by
  refine reachable.tidings.secret c msg.body ?_ field (by rw [body]; rfl) y x
  apply List.mem_filter.mpr
  rw [body]
  exact ⟨List.mem_map.mpr ⟨msg, queued, body⟩, rfl⟩

/-- If every field of another player that has come was queued by a server, in whatever
state, the screen shows no whole ship of another player, whatever else has come. -/
theorem screen_hides_ships (clientFd : Nat) {as : List Act}
    (sent : ∀ field, .gameField field false ∈ heard as → ∃ (srv : Server) (c : ClientId),
      srv.Reachable ∧ ∃ msg ∈ srv.toSendMsg c, msg.body = .gameField field false)
    (y x : Fin fldSz) :
    ((BattleshipGame.init clientFd).acts as).interface.enemyField.field y x ≠
      CellState.unharmed.toCell := by
  rcases enemyField_heard clientFd as with empty | came
  · rw [empty]
    exact show CellState.empty.toCell ≠ CellState.unharmed.toCell by decide
  · obtain ⟨srv, c, reachable, msg, queued, body⟩ := sent _ came
    exact hides_queued reachable queued body y x

theorem screen_hides_ships_opening :
    ((BattleshipGame.init 3).acts (deliver (Server.after opening) 1)).interface.enemyField.field 0 0 ≠
      CellState.unharmed.toCell := by
  refine screen_hides_ships 3 (fun field member => ⟨_, 1, opening_reachable, ?_⟩) 0 0
  obtain ⟨a, taken, body⟩ := List.mem_filterMap.mp member
  obtain ⟨msg, queued, rfl⟩ := List.mem_map.mp taken
  exact ⟨msg, queued, Option.some.inj body⟩

theorem step_move {srv : Server} (inv : srv.Inv) {s : SessionId} {c : ClientId}
    (own : (srv.sessions s).players (srv.sessions s).curTurnPlayerIdx = some c)
    (state : (srv.sessions s).state = .gameTurn) (clear : (srv.sessions s).lastShot = noShot)
    (id : Int64) (x y : Int32) (now : Int64) :
    ∃ srv', srv.step (.message c ⟨id, .gameMove x y⟩ now) = .ok srv' ∧
      srv'.sessions s = { srv.sessions s with
        state := .processTurn, lastShot := ⟨x.toInt, y.toInt⟩, turnTimeout := none } := by
  have sound := inv.sound
  have index := (Session.getPlayerIndex_eq (sound.apart s)).mpr own
  have accepted : (srv.sessions s).setLastShot ⟨x.toInt, y.toInt⟩ c =
      some { srv.sessions s with lastShot := ⟨x.toInt, y.toInt⟩ } := by
    simp [Session.setLastShot, Session.hasLastShot, index, clear]
  have shows_ := (Shows.start sound (sound.seats.born own)).setSession
    { srv.sessions s with lastShot := ⟨x.toInt, y.toInt⟩ } rfl
  have full : (srv.sessions s).Full := (inv.good s).agrees.full (by simp [state]) (by simp [state])
  obtain ⟨t, kind, ⟨handler, inside, handlerId, _, owned, _⟩, _, running⟩ :=
    (inv.good s).running ⟨.gameTurn, state⟩
  have ended : Ends (fun _ => False) _ _ := shows_.endTurn full state (running state)
    ⟨handler, inside, handlerId, owned⟩
  have moved : srv.processGameMoveMsg c ⟨x.toInt, y.toInt⟩ =
      (srv.setSession s { srv.sessions s with lastShot := ⟨x.toInt, y.toInt⟩ }).endTurn s := by
    unfold processGameMoveMsg
    simp only [gameSessionOf_eq.mpr (sound.seats.seat s _ c own), accepted]
    exact if_pos (.inl state)
  rw [← moved] at ended
  cases handled : srv.processGameMoveMsg c ⟨x.toInt, y.toInt⟩ with
  | error fault =>
      rw [handled] at ended
      cases ended
  | ok srv₁ =>
      obtain ⟨h, _, shows₁⟩ := ended.elim handled
      have alive : (srv.clients c).isSome = true :=
        Option.isSome_iff_ne_none.mpr (sound.seats.alive own)
      have alive₁ : srv₁.clients c ≠ none :=
        shows₁.sound.seats.alive (s := s) (by rw [shows₁.session]; exact own)
      refine ⟨srv₁.push c (Message.new (.receipt id)), ?_, shows₁.session⟩
      simp only [step, alive, ↓reduceIte, processMsg, handled]
      exact sendMsg_alive alive₁ _

theorem enter_shot {ui : NcursesInterface} (fired : (ui.processInput .space).1 = .shot) :
    ui.mode = .ownTurn ∧ ui.enemyField.getState ui.cursor.getRelatedPos = .empty ∧
      (ui.processInput .space).2.lastShot = ui.cursor.getRelatedPos := by
  simp only [NcursesInterface.processInput, NcursesInterface.processEnterInput] at fired ⊢
  by_cases preparing : ui.mode = .preparation
  · rw [if_pos preparing] at fired
    split_ifs at fired
  · rw [if_neg preparing] at fired ⊢
    by_cases turn : ui.mode = .ownTurn
    · rw [if_pos turn] at fired ⊢
      by_cases taken : ui.enemyField.getState ui.cursor.getRelatedPos ≠ .empty
      · rw [if_pos taken] at fired
        cases fired
      · rw [if_neg taken]
        exact ⟨turn, not_not.mp taken, rfl⟩
    · rw [if_neg turn] at fired
      cases fired

theorem shot_put {game : BattleshipGame} (fired : (game.interface.processInput .space).1 = .shot) :
    (game.act (.key .space)).toServer = game.toServer ++
      [Message.new (BattleshipGame.moveBody game.interface.cursor.getRelatedPos)] := by
  obtain ⟨_, _, aim⟩ := enter_shot fired
  rw [← aim]
  simp only [BattleshipGame.act, BattleshipGame.processKey, fired]
  rfl

theorem untried_of_view {f : GameField} {point : Point} (inside : Inside point)
    (empty : f.getForEnemy.getState point = .empty) : f.Untried point := by
  refine ⟨inside, ?_⟩
  rw [GameField.getState_empty_inside inside, GameField.at'_getForEnemy f inside] at empty
  obtain ⟨_, notHit, notMissed⟩ := empty
  by_cases whole : f.at' point = 1
  · exact .inr (GameField.getState_unharmed.mpr ⟨inside, whole⟩)
  · rw [if_neg whole] at notHit notMissed
    exact .inl ((GameField.getState_empty_inside inside).mpr ⟨whole, notHit, notMissed⟩)

theorem registerShot_first {session : Session}
    (untried : (session.fields session.enemyIdx).Untried session.lastShot)
    (sent : session.lastShot ≠ noShot) {draws : List Nat} (enough : 2 ≤ draws.length) :
    ∃ shotRes session', session.registerShot draws = some (shotRes, session') ∧
      (session.fields session.enemyIdx).registerShot session.lastShot =
        (shotRes, session'.fields session.enemyIdx) := by
  have returns : session.registerShot draws ≠ none := by
    apply Session.registerShot_returns _ untried
    have hasShot : session.hasLastShot = true := decide_eq_true sent
    rw [Session.tries, if_pos hasShot]
    cases draws with
    | nil => simp at enough
    | cons x rest =>
        cases rest with
        | nil => simp at enough
        | cons y rest => exact List.mem_cons_self
  obtain ⟨result, registered⟩ := Option.ne_none_iff_exists'.mp returns
  obtain ⟨shotRes, session'⟩ := result
  obtain ⟨point, field, _, accepted, rfl, first, _⟩ := Session.registerShot_spec registered
  obtain rfl := first sent untried
  refine ⟨shotRes, _, registered, ?_⟩
  dsimp only
  rw [accepted, Function.update_self]

/-- A shot that the screen of a player lets through when he has taken his messages hits an
untried cell: his move ends the turn, and its result is the answer to this very shot,
whatever numbers are drawn. -/
theorem fired_shot_counts {srv : Server} (reachable : srv.Reachable) {s : SessionId} {c : ClientId}
    (own : (srv.sessions s).players (srv.sessions s).curTurnPlayerIdx = some c)
    (state : (srv.sessions s).state = .gameTurn) (clear : (srv.sessions s).lastShot = noShot)
    (clientFd : Nat) {as : List Act} (caught : srv.sent c <:+ Board.loud (heard as))
    (sent : (Board.after (heard as)).enemy ≠ none)
    (fired : (((BattleshipGame.init clientFd).acts as).interface.processInput .space).1 = .shot)
    (id now : Int64) :
    ∃ x y srv', ((BattleshipGame.init clientFd).acts (as ++ [.key .space])).toServer =
        ((BattleshipGame.init clientFd).acts as).toServer ++ [Message.new (.gameMove x y)] ∧
      srv.step (.message c ⟨id, .gameMove x y⟩ now) = .ok srv' ∧
      (srv'.sessions s).state = .processTurn ∧
      ∀ draws : List Nat, 2 ≤ draws.length → ∃ shotRes session,
        (srv'.sessions s).registerShot draws = some (shotRes, session) ∧
          shotRes ≠ .empty ∧
          ((srv.sessions s).fields (srv.sessions s).enemyIdx).registerShot ⟨x.toInt, y.toInt⟩ =
            (shotRes, session.fields (srv.sessions s).enemyIdx) := by
  obtain ⟨_, empty, _⟩ := enter_shot fired
  have put := shot_put fired
  have steady : ((BattleshipGame.init clientFd).acts as).interface.Steady :=
    BattleshipGame.acts_steady NcursesInterface.init_steady as
  have fields := (knows_of_caught reachable own caught).enemyField (acts_reflect clientFd as)
    (.inl state) sent
  simp only [BattleshipGame.acts_snoc]
  generalize (BattleshipGame.init clientFd).acts as = game at empty put steady fields ⊢
  generalize aim : game.interface.cursor.getRelatedPos = point at empty put
  have inside : Inside point := aim ▸ steady.related
  obtain ⟨body, x, y⟩ := BattleshipGame.moveBody_inside inside
  have untried : ((srv.sessions s).fields (srv.sessions s).enemyIdx).Untried point :=
    untried_of_view inside (fields ▸ empty)
  obtain ⟨srv', moved, session⟩ := step_move reachable.inv own state clear id
    (Int32.ofInt point.x) (Int32.ofInt point.y) now
  have aimed : (⟨(Int32.ofInt point.x).toInt, (Int32.ofInt point.y).toInt⟩ : Point) = point := by
    rw [x, y]
  rw [aimed] at session
  refine ⟨_, _, srv', ?_, moved, by rw [session], fun draws enough => ?_⟩
  · rw [put, body]
  · have far : point ≠ noShot := by
      rintro rfl
      exact absurd inside (by decide)
    have enemy : (srv'.sessions s).enemyIdx = (srv.sessions s).enemyIdx := by rw [session]; rfl
    have first : (srv'.sessions s).lastShot = point := by rw [session]
    have same : (srv'.sessions s).fields = (srv.sessions s).fields := by rw [session]
    have fresh : ((srv'.sessions s).fields (srv'.sessions s).enemyIdx).Untried
        (srv'.sessions s).lastShot := by rwa [first, same, enemy]
    obtain ⟨shotRes, session', registered, answer⟩ :=
      registerShot_first fresh (by rwa [first]) enough
    rw [first, same, enemy] at answer
    refine ⟨shotRes, session', registered, ?_, by rw [aimed, answer]⟩
    have result := (GameField.registerShot_result _ point).mpr untried
    rwa [answer] at result

/-- In the opened game the player whose turn it is fires at the corner. -/
theorem fired_shot_counts_opening :
    ∃ x y srv', ((BattleshipGame.init 3).acts
          (deliver (Server.after opening) 0 ++ [.key .space])).toServer =
        ((BattleshipGame.init 3).acts (deliver (Server.after opening) 0)).toServer ++
          [Message.new (.gameMove x y)] ∧
      (Server.after opening).step (.message 0 ⟨3, .gameMove x y⟩ 80) = .ok srv' ∧
      (srv'.sessions 0).state = .processTurn := by
  obtain ⟨seated, _, state, turn⟩ := opening_seats
  have own : ((Server.after opening).sessions 0).players
      ((Server.after opening).sessions 0).curTurnPlayerIdx = some 0 := by rw [turn, seated]
  obtain ⟨x, y, srv', put, moved, processing, _⟩ := fired_shot_counts opening_reachable own state
    (by decide +kernel) 3 (heard_deliver _ 0) (by decide +kernel) (by decide +kernel) 3 80
  exact ⟨x, y, srv', put, moved, processing⟩

end Screen
end Battleship
