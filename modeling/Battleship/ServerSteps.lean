import Battleship.Phases

/-! Every event is, for every session, a step of its room: the server refines its
rooms. -/
namespace Battleship

open Runs

namespace Server

structure Inv (srv : Server) : Prop where
  sound : srv.Sound
  good : ∀ s, (srv.room s).Good

/-- The event that can cause an action of a room. -/
def Caused (srv : Server) (e : Event) (s : SessionId) : Action → Prop
  | .idle => True
  | .join _ c => ∃ msg now, e = .message c msg now
  | .leave i => ∃ c, e = .broken c ∧ (srv.sessions s).players i = some c
  | .ask i => ∃ c msg now, e = .message c msg now ∧
      (srv.sessions s).players i = some c ∧ msg.body = .gameSessionReq
  | .submit i field => ∃ c msg now own, e = .message c msg now ∧
      (srv.sessions s).players i = some c ∧ msg.body = .gameField field own
  | .move point => ∃ c msg now x y, e = .message c msg now ∧
      (srv.sessions s).players (srv.sessions s).curTurnPlayerIdx = some c ∧
      msg.body = .gameMove x y ∧ point = ⟨x.toInt, y.toInt⟩
  | .fire kind draws => ∃ handler ∈ srv.timeoutHandlers, ∃ sec usec now,
      e = .timer handler.id sec usec now draws ∧ handler.session = s ∧ handler.kind = kind ∧
      (handler.timer.process sec usec).1 = true

/-- A message takes nobody out of his seat and fires no countdown. -/
theorem Caused.by_message {srv : Server} {c : ClientId} {msg : Message} {now : Int64}
    {s : SessionId} {action : Action} (caused : srv.Caused (.message c msg now) s action) :
    (∀ i, action ≠ .leave i) ∧ ∀ kind draws, action ≠ .fire kind draws := by
  constructor
  · rintro i rfl
    obtain ⟨_, broken, _⟩ := caused
    cases broken
  · rintro kind draws rfl
    obtain ⟨_, _, _, _, _, timer, _⟩ := caused
    cases timer

structure Follows (srv : Server) (e : Event) (srv' : Server) : Prop where
  sound : srv'.Sound
  steps : ∀ s, ∃ action, srv.Caused e s action ∧ Room.Step action (srv.room s) (srv'.room s)

theorem Same.follows {srv srv' : Server} (same : Same srv.room srv') (e : Event) :
    srv.Follows e srv' :=
  ⟨same.sound, fun s => ⟨.idle, trivial, same.rooms s ▸ .idle⟩⟩

theorem Shows.follows {srv srv' : Server} {s : SessionId} {room : Room} {e : Event}
    (shows_ : Shows srv.room s room srv') (action : Action) (caused : srv.Caused e s action)
    (step : Room.Step action (srv.room s) room) : srv.Follows e srv' := by
  refine ⟨shows_.sound, fun t => ?_⟩
  by_cases here : t = s
  · subst here
    exact ⟨action, caused, shows_.here ▸ step⟩
  · exact ⟨.idle, trivial, shows_.others t here ▸ .idle⟩

theorem evictInvalid_empty {session : Session} (nobody : ∀ i, session.players i = none) :
    session.evictInvalid = session := by
  simp [Session.evictInvalid, Session.evict, nobody]

theorem Shows.evictInvalid_empty {base : SessionId → Room} {s : SessionId} {room : Room}
    {srv : Server} (shows_ : Shows base s room srv)
    (nobody : ∀ i, room.session.players i = none) : room.evictInvalid = room := by
  have kept := Server.evictInvalid_empty nobody
  refine Room.ext kept rfl (funext fun i => ?_)
  simp [Room.evictInvalid, kept, nobody i, shows_.told_free (nobody i)]

theorem nobody_of {session : Session} (nobody : ¬ ∃ i c, session.players i = some c)
    (i : PlayerIdx) : session.players i = none :=
  Option.eq_none_iff_forall_ne_some.mpr fun c seated => nobody ⟨i, c, seated⟩

variable {allowed : Fault → Prop}

theorem Shows.timeoutEvent_late {base : SessionId → Room} {s : SessionId} {room : Room}
    {srv : Server} (shows_ : Shows base s room srv) {kind : TimeoutKind}
    (late : ¬ room.session.Expects kind) (now : Int64) (draws : List Nat) :
    Ends allowed (srv.timeoutEvent kind s now draws) (Shows base s room) := by
  cases kind with
  | preparation =>
      refine Ends.of_eq (if_pos ?_) shows_
      rwa [shows_.session]
  -- `check_start_fields` and `end_game` have no guard: they find nobody to serve.
  | checkStartFields =>
      have nobody := nobody_of late
      have kept := Server.evictInvalid_empty nobody
      have none := Session.count_zero_iff.mpr nobody
      refine shows_.checkStartFields.mono fun srv' outcome => ?_
      rcases outcome with ⟨full, _⟩ | ⟨one, _⟩ | ⟨_, shows₁⟩
      · obtain ⟨c, seated⟩ := full 0
        cases (nobody 0).symm.trans seated
      · rw [kept] at one
        omega
      · rwa [shows_.evictInvalid_empty nobody] at shows₁
  | gameStart =>
      refine Ends.of_eq (if_pos ?_) shows_
      rwa [shows_.session]
  | gameTurn =>
      refine Ends.of_eq (if_pos ?_) shows_
      rwa [shows_.session]
  | changeTurn =>
      refine Ends.of_eq (if_pos ?_) shows_
      rwa [shows_.session]
  | endGame =>
      have nobody := nobody_of late
      have first : Ends allowed _ _ := shows_.endGameFor 0
      have second (srv₁ : Server) (shows₁ : Shows base s room srv₁) : Ends allowed _ _ :=
        shows₁.endGameFor 1
      simp only [nobody, Option.isSome_none, Bool.false_eq_true, ↓reduceIte] at first second
      exact first.bind second

theorem Shows.timeoutEvent {base : SessionId → Room} {s : SessionId} {room : Room} {srv : Server}
    {h : HandlerId} (shows_ : Shows base s (room.without h) srv) (good : room.Good)
    {kind : TimeoutKind} (pending : (h, kind) ∈ room.pending)
    (known : ∀ t k, (t, k) ∈ room.pending →
      ∃ handler ∈ srv.timeoutHandlers, handler.id = t ∧ handler.session = s)
    (now : Int64) (draws : List Nat)
    (short : room.session.Expects kind → room.session.RunsOut kind draws →
      allowed .drawsExhausted) :
    Ends allowed (srv.timeoutEvent kind s now draws) fun srv' =>
      ∃ room', Room.Step (.fire kind draws) room room' ∧ Shows base s room' srv' := by
  have full (state : GameState) (here : room.session.state = state)
      (open_ : state ≠ .noVacantGame) (started : state ≠ .waitPlayer) : room.session.Full :=
    good.agrees.full (here ▸ open_) (here ▸ started)
  by_cases expects : room.session.Expects kind
  · cases kind with
    | preparation =>
        refine (shows_.stopPreparation (full _ expects nofun nofun) expects).mono ?_
        exact fun srv' ⟨h', fresh, shows₁⟩ => ⟨_, .stopPreparation pending expects fresh, shows₁⟩
    | checkStartFields =>
        refine shows_.checkStartFields.mono fun srv' outcome => ?_
        rcases outcome with ⟨both, valid, h', fresh, shows₁⟩ | ⟨one, shows₁⟩ | ⟨none, shows₁⟩
        · exact ⟨_, .fieldsAccepted pending both valid fresh, shows₁⟩
        · exact ⟨_, .oneLeft pending one, shows₁⟩
        · exact ⟨_, .noneLeft pending none, shows₁⟩
    | gameStart =>
        refine (shows_.startGame (full _ expects nofun nofun) expects now draws
          fun none => short expects (.inl ⟨rfl, none⟩)).mono ?_
        exact fun srv' ⟨first, h', fresh, shows₁⟩ => ⟨_, .startGame pending expects fresh, shows₁⟩
    | gameTurn =>
        obtain ⟨t, kind, member, _, turn⟩ := good.running ⟨.gameTurn, expects⟩
        have running := turn expects
        refine (shows_.endTurn (full _ expects nofun nofun) expects running
          (known t kind member)).mono ?_
        exact fun srv' ⟨h', fresh, shows₁⟩ =>
          ⟨_, .endTurn pending expects running fresh, shows₁⟩
    | changeTurn =>
        have state : room.session.state = .processTurn := expects
        cases shot : room.session.registerShot draws with
        -- The given numbers are used up: the loop of `_register_shot` has not ended.
        | none =>
            have late : srv.changeTurnPlayer s now draws = .error .drawsExhausted := by
              unfold Server.changeTurnPlayer
              rw [shows_.session, Room.without_session, if_neg (by simpa using state)]
              simp [shot]
            change Ends allowed (srv.changeTurnPlayer s now draws) _
            rw [late]
            exact short expects (.inr ⟨rfl, shot⟩)
        | some result =>
            refine (shows_.changeTurnPlayer (full _ state nofun nofun) state now shot).mono ?_
            rintro srv' ⟨h', fresh, ⟨finished, shows₁⟩ | ⟨ongoing, shows₁⟩⟩
            · exact ⟨_, .gameOver pending state shot finished fresh, shows₁⟩
            · exact ⟨_, .changeTurn pending state shot ongoing fresh, shows₁⟩
    | endGame =>
        refine (shows_.endGame good.agrees expects).mono ?_
        exact fun srv' shows₁ => ⟨_, .endGame pending expects, shows₁⟩
  · refine (shows_.timeoutEvent_late expects now draws).mono ?_
    exact fun srv' shows₁ => ⟨_, .expire pending expects, shows₁⟩

theorem Shows.dropElapsed {base : SessionId → Room} {s : SessionId} {room : Room} {srv : Server}
    (shows_ : Shows base s room srv) (id : HandlerId) :
    Shows base s room (srv.dropElapsed id) :=
  ⟨shows_.sound.dropElapsed id, shows_.born, (room_dropElapsed srv s id).trans shows_.here,
    fun t other => (room_dropElapsed srv t id).trans (shows_.others t other)⟩

theorem Shows.elapsed {srv : Server} (inv : srv.Inv) {handler : Handler}
    (member : handler ∈ srv.timeoutHandlers) {sec usec : Int}
    (fired : (handler.timer.process sec usec).1 = true) :
    Shows srv.room handler.session ((srv.room handler.session).without handler.id)
      (srv.setTimer handler.id (handler.timer.process sec usec).2) := by
  have sound := inv.sound
  obtain ⟨_, elapsed⟩ := TimeoutHandler.process_fired fired
  refine ⟨sound.setTimer _ _, sound.handlers.owner handler member,
    room_setTimer_elapsed _ _ _ elapsed, fun t other => ?_⟩
  rw [room_setTimer_elapsed _ _ _ elapsed, sound.without_other other member rfl]

theorem processTimeout_ends {srv : Server} (inv : srv.Inv) {handler : Handler}
    (member : handler ∈ srv.timeoutHandlers) {sec usec : Int}
    (fired : (handler.timer.process sec usec).1 = true) (now : Int64) (draws : List Nat)
    (short : (srv.sessions handler.session).Expects handler.kind →
      (srv.sessions handler.session).RunsOut handler.kind draws → allowed .drawsExhausted) :
    Ends allowed (srv.processTimeout handler sec usec now draws) fun srv' => ∃ room',
      Room.Step (.fire handler.kind draws) (srv.room handler.session) room' ∧
        Shows srv.room handler.session room' srv' := by
  have pending : (handler.id, handler.kind) ∈ (srv.room handler.session).pending :=
    ⟨handler, member, rfl, rfl, rfl, (TimeoutHandler.process_fired fired).1⟩
  have shows_ := Shows.elapsed inv member fired
  have known (t : HandlerId) (k : TimeoutKind)
      (inside : (t, k) ∈ (srv.room handler.session).pending) :
      ∃ handler' ∈ (srv.setTimer handler.id (handler.timer.process sec usec).2).timeoutHandlers,
        handler'.id = t ∧ handler'.session = handler.session := by
    obtain ⟨h, old, rfl, _, owned, _⟩ := inside
    refine ⟨_, mem_setTimer.mpr ⟨h, old, rfl⟩, ?_⟩
    split_ifs <;> exact ⟨rfl, owned⟩
  unfold processTimeout
  simp only [fired, ↓reduceIte]
  refine (shows_.timeoutEvent (inv.good _) pending known now draws short).bind ?_
  exact fun srv' ⟨room', step, shows₁⟩ => ⟨room', step, shows₁.dropElapsed _⟩

theorem processTimeout_fired {srv : Server} (inv : srv.Inv) {handler : Handler}
    (member : handler ∈ srv.timeoutHandlers) {sec usec : Int}
    (fired : (handler.timer.process sec usec).1 = true) (now : Int64) (draws : List Nat) :
    Does (srv.processTimeout handler sec usec now draws) fun srv' => ∃ room',
      Room.Step (.fire handler.kind draws) (srv.room handler.session) room' ∧
        Shows srv.room handler.session room' srv' :=
  processTimeout_ends inv member fired now draws fun _ _ => Or.inl rfl

theorem processTimeout_returns {srv : Server} (inv : srv.Inv) {handler : Handler}
    (member : handler ∈ srv.timeoutHandlers) {sec usec : Int} (now : Int64) {draws : List Nat}
    (enough : (handler.timer.process sec usec).1 = true →
      (srv.sessions handler.session).Expects handler.kind →
      ¬ (srv.sessions handler.session).RunsOut handler.kind draws) :
    ∃ srv', srv.processTimeout handler sec usec now draws = .ok srv' := by
  by_cases fired : (handler.timer.process sec usec).1 = true
  · have ends : Ends (fun _ => False) _ _ :=
      processTimeout_ends inv member fired now draws (enough fired)
    cases done : srv.processTimeout handler sec usec now draws with
    | error fault => exact (ends.fault done).elim
    | ok srv' => exact ⟨srv', rfl⟩
  · unfold processTimeout
    simp only [fired, Bool.false_eq_true, ↓reduceIte]
    exact ⟨_, rfl⟩

theorem processTimeout_follows {srv : Server} (inv : srv.Inv) {handler : Handler}
    (member : handler ∈ srv.timeoutHandlers) (sec usec : Int) (now : Int64) (draws : List Nat) :
    Does (srv.processTimeout handler sec usec now draws)
      (srv.Follows (.timer handler.id sec usec now draws)) := by
  by_cases fired : (handler.timer.process sec usec).1 = true
  · refine (processTimeout_fired inv member fired now draws).mono ?_
    exact fun srv' ⟨room', step, shows_⟩ => shows_.follows (.fire handler.kind draws)
      ⟨handler, member, sec, usec, now, rfl, rfl, rfl, fired⟩ step
  · have silent : (handler.timer.process sec usec).1 = false := by simpa using fired
    have same : (handler.timer.process sec usec).2.elapsed = handler.elapsed := by
      cases before : handler.timer.elapsed with
      | true => simp [TimeoutHandler.process, before]
      | false => exact (TimeoutHandler.process_silent before silent).trans before.symm
    have unchanged : Same srv.room ((srv.setTimer handler.id
        (handler.timer.process sec usec).2).dropElapsed handler.id) :=
      ⟨(inv.sound.setTimer _ _).dropElapsed _, fun s => (room_dropElapsed ..).trans
        (room_setTimer_running inv.sound.handlers s member same)⟩
    unfold processTimeout
    simp only [silent, Bool.false_eq_true, ↓reduceIte]
    exact unchanged.follows _

theorem gameSessionOf_eq {srv : Server} {c : ClientId} {s : SessionId} :
    srv.gameSessionOf c = some s ↔ srv.clients c = some ⟨some s⟩ := by
  unfold gameSessionOf
  cases srv.clients c with
  | none => simp
  | some client => cases client; simp

theorem gameSessionOf_alone {srv : Server} {c : ClientId} (alive : srv.clients c ≠ none)
    (alone : srv.gameSessionOf c = none) : srv.clients c = some ⟨none⟩ := by
  unfold gameSessionOf at alone
  cases known : srv.clients c with
  | none => exact absurd known alive
  | some client =>
      cases client
      simpa [known] using alone

def Answered (srv : Server) (e : Event) (c : ClientId) (srv' : Server) : Prop :=
  srv.Follows e srv' ∧ srv'.clients c ≠ none

theorem full_taken {session : Session} {b : ClientId}
    (host : session.players (getEnemyIdx session.freeIdx) = some b) (c : ClientId) :
    (session.taken c).Full := by
  intro j
  by_cases same : j = session.freeIdx
  · exact ⟨c, by simp [Session.taken, same]⟩
  · refine ⟨b, ?_⟩
    have enemy : j = getEnemyIdx session.freeIdx := by
      revert same
      generalize session.freeIdx = i
      fin_cases i <;> fin_cases j <;> simp [getEnemyIdx]
    rw [← host, ← enemy]
    exact Function.update_of_ne same _ _

theorem vacant_cases {session : Session} (agrees : session.Agrees) (vacant : session.isVacant = true) :
    (session.state = .noVacantGame ∧ (∀ i, session.players i = none) ∧ session.freeIdx = 0) ∨
      (session.state = .waitPlayer ∧
        ∃ b, session.players (getEnemyIdx session.freeIdx) = some b) := by
  have free := Session.freeIdx_free vacant
  rcases Session.agrees_iff.mp agrees with ⟨closed, none⟩ | ⟨waiting, one⟩ | ⟨_, _, two⟩
  · have nobody := Session.count_zero_iff.mp none
    exact Or.inl ⟨closed, nobody, if_pos (nobody 0)⟩
  · refine Or.inr ⟨waiting, Option.isSome_iff_exists.mp ?_⟩
    by_contra empty
    have empty := Option.not_isSome_iff_eq_none.mp empty
    have nobody : ∀ i, session.players i = none := by
      revert free empty
      generalize session.freeIdx = i
      rw [Fin.forall_fin_two]
      fin_cases i <;> simp_all [getEnemyIdx]
    have := Session.count_zero_iff.mpr nobody
    omega
  · obtain ⟨c, seated⟩ := Session.full_iff.mpr two session.freeIdx
    cases free.symm.trans seated

/-- An action of room `s`, caused by a client who is still there. -/
def Acts (srv : Server) (s : SessionId) (action : Action) (c : ClientId) (srv' : Server) : Prop :=
  ∃ room', Room.Step action (srv.room s) room' ∧ Shows srv.room s room' srv' ∧
    srv'.clients c ≠ none

theorem Acts.answered {srv srv' : Server} {s : SessionId} {action : Action} {c : ClientId}
    {e : Event} (acts : srv.Acts s action c srv') (caused : srv.Caused e s action) :
    srv.Answered e c srv' := by
  obtain ⟨room', step, shows_, alive⟩ := acts
  exact ⟨shows_.follows _ caused step, alive⟩

/-- A client who is in no session takes the free slot that he is offered. -/
theorem processGameSessionReqMsg_joins {srv srv₁ : Server} (sound : srv.Sound)
    (good : ∀ s, (srv.room s).Good) {c : ClientId} (alone : srv.clients c = some ⟨none⟩)
    {s : SessionId} (vacant : (srv.sessions s).isVacant = true)
    (done : srv.connectPlayerToGame c = (true, srv₁))
    (shows_ : Shows srv.room s (((srv.room s).seat (srv.sessions s).freeIdx c
      (news (srv.toSendMsg c))).withSession ((srv.sessions s).taken c)) srv₁) (now : Int64) :
    Does (srv.processGameSessionReqMsg c now) (srv.Acts s (.join (srv.sessions s).freeIdx c) c) := by
  have here : (srv₁.sessions s).players (srv.sessions s).freeIdx = some c := by
    simp [shows_.session, Session.taken]
  have member := shows_.sound.seats.seat s _ c here
  have alive₁ : srv₁.clients c ≠ none := by simp [member]
  have session : srv.gameSessionOf c = none := by simp [gameSessionOf, alone]
  unfold processGameSessionReqMsg
  simp only [session, done, gameSessionOf_eq.mpr member, shows_.session, Room.withSession_session]
  -- The first player waits, the second begins the preparation.
  rcases vacant_cases (good s).agrees vacant with ⟨closed, nobody, first⟩ | ⟨waiting, b, host⟩
  · have closed₁ : (srv.sessions s).state = .noVacantGame := closed
    have first : (srv.sessions s).freeIdx = 0 := first
    have state : ((srv.sessions s).taken c).state = .waitPlayer := if_pos closed
    have told := shows_.push (i := 0) (c := c) (by simp [Session.taken, first])
      (Message.new (.gameState ((srv.sessions s).taken c).state.code))
    rw [Message.new_body, Room.hear_news _ _ (Body.news_gameState _), first] at told
    rw [if_neg (by simp [state]), sendMsg_alive alive₁, first]
    refine ⟨_, ?_, told, alive₁⟩
    rw [state]
    convert show Room.Step _ (srv.room s) _ from .joinFirst nobody closed using 3
    simp [Session.taken, first, closed₁]
  · have waiting₁ : (srv.sessions s).state = .waitPlayer := waiting
    have state : ((srv.sessions s).taken c).state = .waitPreparation :=
      if_neg (by simp [waiting₁])
    rw [if_pos state]
    refine (shows_.startPreparation (full_taken host c) state now).mono ?_
    rintro srv₂ ⟨h, fresh, shows₂⟩
    have step := @Room.Step.joinSecond (srv.room s) _ _ c _ (news (srv.toSendMsg c))
      (Session.freeIdx_free vacant) host (by rintro rfl; exact sound.absent alone _ _ host) waiting fresh
    refine ⟨_, step, shows₂, ?_⟩
    refine shows₂.sound.seats.alive (s := s) (i := (srv.sessions s).freeIdx) ?_
    rw [shows₂.session]
    simp [Session.taken]

theorem processGameSessionReqMsg_answered {srv : Server} (sound : srv.Sound)
    (good : ∀ s, (srv.room s).Good) {c : ClientId} (alive : srv.clients c ≠ none)
    {msg : Message} (body : msg.body = .gameSessionReq) (now : Int64) :
    Does (srv.processGameSessionReqMsg c now) (srv.Answered (.message c msg now) c) := by
  cases session : srv.gameSessionOf c with
  | some s =>
      obtain ⟨i, seated⟩ := sound.seats.member s c (gameSessionOf_eq.mp session)
      have ready : (srv.sessions s).state ≠ .waitPreparation := (good s).ready
      have shows_ := (Shows.start sound (sound.seats.born seated)).push seated
        (Message.new (.gameState (srv.sessions s).state.code))
      rw [Message.new_body, Room.hear_news _ _ (Body.news_gameState _)] at shows_
      unfold processGameSessionReqMsg
      simp only [session, ready, ↓reduceIte, sendMsg_alive alive]
      exact ⟨shows_.follows (.ask i)
        ⟨c, msg, now, rfl, seated, body⟩ (.ask seated), alive⟩
  | none =>
      have alone := gameSessionOf_alone alive session
      rcases connect_alone sound alone with ⟨_, full⟩ | ⟨s, srv₁, vacant, done, shows_⟩
      · have refused : Same srv.room (srv.push c
            (Message.new (.gameState GameState.noVacantGame.code))) :=
          ⟨sound.push _ _, fun s => room_push_other (sound.absent alone s) _⟩
        unfold processGameSessionReqMsg
        simp only [session, full, sendMsg_alive alive]
        exact ⟨refused.follows _, alive⟩
      · exact (processGameSessionReqMsg_joins sound good alone vacant done shows_ now).mono
          fun srv' acts => acts.answered ⟨msg, now, rfl⟩

theorem answer {srv : Server} (sound : srv.Sound) {c : ClientId} (alive : srv.clients c ≠ none)
    (e : Event) {msg : Message} (silent : msg.body.news = none) :
    Does (srv.sendMsg c msg) (srv.Answered e c) := by
  refine Ends.of_eq (sendMsg_alive alive msg) ⟨Same.follows ?_ e, alive⟩
  exact Same.push ⟨sound, fun _ => rfl⟩ c silent

theorem setField_accepted {session : Session} (apart : session.Apart) {i : PlayerIdx}
    {c : ClientId} (seated : session.players i = some c)
    (phase : session.state = .preparation ∨ session.state = .waitStart) (field : GameField) :
    session.setField c field =
      some { session with fields := Function.update session.fields i field } := by
  unfold Session.setField
  rw [if_neg (by tauto), (Session.getPlayerIndex_eq apart).mpr seated]

theorem processGameFieldMsg_answered {srv : Server} (sound : srv.Sound) {c : ClientId}
    (alive : srv.clients c ≠ none) {msg : Message} {field : GameField} {own : Bool}
    (body : msg.body = .gameField field own) (now : Int64) :
    Does (srv.processGameFieldMsg c msg.id field) (srv.Answered (.message c msg now) c) := by
  unfold processGameFieldMsg
  split
  · exact answer sound alive _ rfl
  · rename_i s session
    obtain ⟨i, seated⟩ := sound.seats.member s c (gameSessionOf_eq.mp session)
    split
    · exact answer sound alive _ rfl
    · rename_i valid
      have valid : field.isValidStartField = true := by simpa using valid
      by_cases phase : (srv.sessions s).state = .preparation ∨ (srv.sessions s).state = .waitStart
      · have shows_ := (Shows.start sound (sound.seats.born seated)).setSession
          { srv.sessions s with
            fields := Function.update (srv.sessions s).fields i field } rfl
        simp only [setField_accepted (sound.apart s) seated phase field]
        refine Ends.of_eq (sendMsg_alive (by exact alive) _) ⟨?_, alive⟩
        exact (shows_.push_silent c rfl).follows (.submit i field)
          ⟨c, msg, now, own, rfl, seated, body⟩ (.submit seated phase valid)
      · have refused : (srv.sessions s).setField c field = none := by
          unfold Session.setField
          rw [if_pos (by tauto)]
        simp only [refused]
        exact answer sound alive _ rfl

theorem processGameMoveMsg_moves {srv : Server} (sound : srv.Sound)
    (good : ∀ s, (srv.room s).Good) {s : SessionId} {c : ClientId}
    (own : (srv.sessions s).players (srv.sessions s).curTurnPlayerIdx = some c)
    (playing : (srv.sessions s).Playing) (clear : (srv.sessions s).lastShot = noShot)
    (point : Point) : Does (srv.processGameMoveMsg c point) (srv.Acts s (.move point) c) := by
  have index := (Session.getPlayerIndex_eq (sound.apart s)).mpr own
  have accepted : (srv.sessions s).setLastShot point c =
      some { srv.sessions s with lastShot := point } := by
    simp [Session.setLastShot, Session.hasLastShot, index, clear]
  have shows_ := (Shows.start sound (sound.seats.born own)).setSession
    { srv.sessions s with lastShot := point } rfl
  unfold processGameMoveMsg
  simp only [gameSessionOf_eq.mpr (sound.seats.seat s _ c own), accepted]
  have phase : (srv.sessions s).state = .gameTurn ∨ (srv.sessions s).state = .processTurn :=
    playing
  rw [if_pos phase]
  rcases phase with turn | late
  · have full := (good s).agrees.full (by simp [turn]) (by simp [turn])
    obtain ⟨t, kind, member, _, running⟩ := (good s).running ⟨.gameTurn, turn⟩
    obtain ⟨handler, inside, id, _, owned, _⟩ := member
    refine (shows_.endTurn full turn (running turn)
      ⟨handler, inside, id, owned⟩).mono fun srv' ⟨h, fresh, shows₁⟩ => ?_
    refine ⟨_, .move turn clear (running turn) fresh, shows₁, ?_⟩
    exact shows₁.sound.seats.alive (s := s) (by rw [shows₁.session]; exact own)
  · refine Ends.of_eq (if_pos ?_) ⟨_, .lateMove late clear, shows_, ?_⟩
    · rw [shows_.session]
      simp [late]
    · exact sound.seats.alive own

theorem processGameMoveMsg_answered {srv : Server} (sound : srv.Sound)
    (good : ∀ s, (srv.room s).Good) {c : ClientId} (alive : srv.clients c ≠ none)
    {msg : Message} {x y : Int32} (body : msg.body = .gameMove x y) (now : Int64) :
    Does (srv.processGameMoveMsg c ⟨x.toInt, y.toInt⟩) (srv.Answered (.message c msg now) c) := by
  have unchanged : Does (.ok srv) (srv.Answered (.message c msg now) c) :=
    ⟨Same.follows ⟨sound, fun _ => rfl⟩ _, alive⟩
  cases session : srv.gameSessionOf c with
  | none =>
      unfold processGameMoveMsg
      simp only [session]
      exact answer sound alive _ rfl
  | some s =>
      by_cases moves : (srv.sessions s).Playing ∧
          (srv.sessions s).players (srv.sessions s).curTurnPlayerIdx = some c ∧
          (srv.sessions s).lastShot = noShot
      · obtain ⟨playing, own, clear⟩ := moves
        exact (processGameMoveMsg_moves sound good own playing clear _).mono
          fun srv' acts => acts.answered ⟨c, msg, now, x, y, rfl, own, body, rfl⟩
      · unfold processGameMoveMsg
        simp only [session]
        split
        · rename_i playing
          have refused : (srv.sessions s).setLastShot ⟨x.toInt, y.toInt⟩ c = none := by
            unfold Session.setLastShot
            refine if_neg fun accepted => moves ⟨playing, ?_, ?_⟩
            · exact (Session.getPlayerIndex_eq (sound.apart s)).mp accepted.1
            · simpa [Session.hasLastShot] using accepted.2
          simp only [refused]
          exact unchanged
        · exact unchanged

theorem acknowledged {x : Except Fault Server} {c : ClientId} (msg : Message)
    (post : Server → Prop) (done : Does x fun srv' => post srv' ∧ srv'.clients c ≠ none)
    (silent : ∀ srv', post srv' → post (srv'.push c (Message.new (.receipt msg.id)))) :
    Does (do
      let srv' ← x
      if msg.type ≠ .receipt then srv'.sendMsg c (Message.new (.receipt msg.id)) else .ok srv')
      post := by
  refine done.bind fun srv' ⟨holds, alive⟩ => ?_
  split
  · exact Ends.of_eq (sendMsg_alive alive _) (silent srv' holds)
  · exact holds

theorem Follows.push {srv srv' : Server} {e : Event} (follows : srv.Follows e srv') (c : ClientId)
    {msg : Message} (silent : msg.body.news = none) : srv.Follows e (srv'.push c msg) := by
  refine ⟨follows.sound.push _ _, fun s => ?_⟩
  rw [room_push_silent _ _ _ silent]
  exact follows.steps s

theorem processMsg_follows {srv : Server} (sound : srv.Sound)
    (good : ∀ s, (srv.room s).Good) {c : ClientId} (alive : srv.clients c ≠ none)
    (msg : Message) (now : Int64) :
    Does (srv.processMsg c msg now) (srv.Follows (.message c msg now)) := by
  have rest {x : Except Fault Server} (done : Does x (srv.Answered (.message c msg now) c)) :=
    acknowledged msg _ done fun srv' follows => follows.push c rfl
  unfold processMsg
  cases body : msg.body with
  | gameSessionReq => exact rest (processGameSessionReqMsg_answered sound good alive body now)
  | gameField field own => exact rest (processGameFieldMsg_answered sound alive body now)
  | gameMove x y => exact rest (processGameMoveMsg_answered sound good alive body now)
  | _ => exact rest (x := .ok srv) ⟨Same.follows ⟨sound, fun _ => rfl⟩ _, alive⟩

theorem Acts.acknowledged {srv : Server} {s : SessionId} {action : Action} {c : ClientId}
    {x : Except Fault Server} (acts : Does x (srv.Acts s action c)) (msg : Message) :
    Does (do
      let srv' ← x
      if msg.type ≠ .receipt then srv'.sendMsg c (Message.new (.receipt msg.id)) else .ok srv')
      fun srv' => ∃ room', Room.Step action (srv.room s) room' ∧ Shows srv.room s room' srv' := by
  refine Server.acknowledged msg (fun srv' => ∃ room', _ ∧ Shows srv.room s room' srv')
    (acts.mono ?_) ?_
  · exact fun srv' ⟨room', moved, shows_, alive⟩ => ⟨⟨room', moved, shows_⟩, alive⟩
  · exact fun srv' ⟨room', moved, shows_⟩ =>
      ⟨room', moved, shows_.push_silent c rfl⟩

theorem step_moves {srv : Server} (inv : srv.Inv) {s : SessionId} {c : ClientId}
    (own : (srv.sessions s).players (srv.sessions s).curTurnPlayerIdx = some c)
    (playing : (srv.sessions s).Playing) (clear : (srv.sessions s).lastShot = noShot)
    {msg : Message} {x y : Int32} (body : msg.body = .gameMove x y) (now : Int64) :
    Does (srv.step (.message c msg now)) fun srv' =>
      ∃ room', Room.Step (.move ⟨x.toInt, y.toInt⟩) (srv.room s) room' ∧
        Shows srv.room s room' srv' := by
  have alive := Option.isSome_iff_ne_none.mpr (inv.sound.seats.alive own)
  simp only [step, alive, ↓reduceIte, processMsg, body]
  exact Acts.acknowledged (processGameMoveMsg_moves inv.sound inv.good own playing clear _) msg

/-- A client who is in no session joins one, or all sessions are full. -/
theorem step_joins {srv : Server} (inv : srv.Inv) {c : ClientId}
    (alone : srv.clients c = some ⟨none⟩) {msg : Message} (body : msg.body = .gameSessionReq)
    (now : Int64) :
    (∀ s < gameCount, (srv.sessions s).isVacant = false) ∨
      ∃ s i, Does (srv.step (.message c msg now)) fun srv' =>
        ∃ room', Room.Step (.join i c) (srv.room s) room' ∧ Shows srv.room s room' srv' := by
  rcases connect_alone inv.sound alone with ⟨full, _⟩ | ⟨s, srv₁, vacant, done, shows_⟩
  · exact Or.inl full
  · refine Or.inr ⟨s, (srv.sessions s).freeIdx, ?_⟩
    have alive : (srv.clients c).isSome = true := by simp [alone]
    simp only [step, alive, ↓reduceIte, processMsg, body]
    exact Acts.acknowledged
      (processGameSessionReqMsg_joins inv.sound inv.good alone vacant done shows_ now) msg

theorem connBroken_follows {srv : Server} (sound : srv.Sound) {c : ClientId}
    (alive : srv.clients c ≠ none) : Does (srv.connBroken c) (srv.Follows (.broken c)) := by
  cases session : srv.gameSessionOf c with
  | none =>
      have alone := gameSessionOf_alone alive session
      have same : Same srv.room srv := ⟨sound, fun _ => rfl⟩
      have left := same.left (c := c) (by simp [alone])
      exact Ends.of_eq (connBroken_alone alone) (left.follows _)
  | some s =>
      obtain ⟨i, seated⟩ := sound.seats.member s c (gameSessionOf_eq.mp session)
      have shows_ := (Shows.start sound (sound.seats.born seated)).left seated
      exact Ends.of_eq (connBroken_member sound seated)
        (shows_.follows (.leave i) ⟨c, rfl, seated⟩ (.leave seated))

theorem step_follows {srv : Server} (inv : srv.Inv) (e : Event) :
    Does (srv.step e) (srv.Follows e) := by
  cases e with
  | accept => exact inv.sound.accept.follows _
  | message c msg now =>
      simp only [step]
      split
      · rename_i alive
        exact processMsg_follows inv.sound inv.good (Option.isSome_iff_ne_none.mp alive) msg now
      · exact Or.inr rfl
  | broken c =>
      simp only [step]
      split
      · rename_i alive
        exact connBroken_follows inv.sound (Option.isSome_iff_ne_none.mp alive)
      · exact Or.inr rfl
  | timer id sec usec now draws =>
      simp only [step]
      split
      · exact Or.inr rfl
      · rename_i handler found
        obtain rfl : handler.id = id := by simpa using List.find?_some found
        exact processTimeout_follows inv (List.mem_of_find?_eq_some found) ..

theorem Follows.inv {srv srv' : Server} {e : Event} (follows : srv.Follows e srv')
    (inv : srv.Inv) : srv'.Inv := by
  refine ⟨follows.sound, fun s => ?_⟩
  obtain ⟨action, _, step⟩ := follows.steps s
  exact step.good (inv.good s)

theorem step_inv {srv srv' : Server} {e : Event} (inv : srv.Inv) (done : srv.step e = .ok srv') :
    srv'.Inv :=
  ((step_follows inv e).elim done).inv inv

theorem init_inv : init.Inv := by
  refine ⟨⟨⟨nofun, nofun, fun _ _ => rfl, by decide, fun _ _ => rfl, ?_, ?_⟩,
    ⟨nofun, nofun, nofun⟩, nofun⟩, fun s =>
      ⟨Session.agrees_iff.mpr (Or.inl ⟨rfl, rfl⟩), nofun, nofun, ?_, ?_⟩⟩
  · exact (SlotTable.holds_replicate _).congr fun _ => by simp [init]
  · exact (SlotTable.holds_replicate _).congr fun _ => by simp [init]
  · rintro h kind kind' ⟨_, member, _⟩
    cases member
  · exact fun timed => absurd timed (Room.not_timed (Or.inl rfl))

theorem run_inv {srv : Server} {es : List Event} (done : run init es = .ok srv) : srv.Inv :=
  run_invariant step (fun _ _ _ inv stepped => step_inv inv stepped) init_inv done

theorem Reachable.inv {srv : Server} (reachable : srv.Reachable) : srv.Inv := by
  obtain ⟨es, done⟩ := reachable
  exact run_inv done

end Server
end Battleship
