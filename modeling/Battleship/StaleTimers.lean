import Battleship.ShotProvenance

/-! Handlers that outlive the game they were registered for. No handler is
cancelled when a player leaves, so one may fire in a later game of its session; it
does nothing there exactly if the guard of its event holds it back. -/
namespace Battleship

open Runs

namespace Session

/-- The session is in no state in which the handler's event does anything. -/
def Shielded (session : Session) : TimeoutKind → Prop
  | .preparation => session.state ≠ .preparation
  | .checkStartFields => (∀ i, session.players i = none) ∨
      session.Full ∧ (∀ i, (session.fields i).isValidStartField = true) ∧
        session.state ≠ .waitStart
  | .gameStart => session.state ≠ .waitStart
  | .gameTurn => session.state ≠ .gameTurn
  | .changeTurn => session.state ≠ .processTurn
  | .endGame => ∀ i, session.players i = none

end Session

namespace Room

theorem tellResult_told (room : Room) (i : PlayerIdx) :
    ∃ said, room.tellResult.told i = room.told i ++ [said] := by
  unfold tellResult tell Session.enemyIdx
  generalize room.session.curTurnPlayerIdx = own
  fin_cases own <;> fin_cases i <;> simp [getEnemyIdx]

/-- A countdown that fires and changes neither state nor players, and tells nobody
anything, has met a guard, or it has just passed two valid fields on. -/
theorem Step.shielded {kind : TimeoutKind} {draws : List Nat} {room room' : Room}
    (step : Step (.fire kind draws) room room') (state : room'.session.state = room.session.state)
    (players : room'.session.players = room.session.players) (told : room'.told = room.told) :
    room.session.Shielded kind ∨
      (kind = .checkStartFields ∧ room.session.Full ∧
        (∀ i, (room.session.fields i).isValidStartField = true) ∧
        room.session.state = .waitStart) := by
  -- A countdown that does something tells it to the players.
  have louder (i : PlayerIdx) (said : GameState) : room.told i ≠ room.told i ++ [said] := by
    intro same
    have := congrArg List.length same
    simp at this
  cases step with
  | expire pending late =>
      refine Or.inl ?_
      cases kind with
      | checkStartFields => exact Or.inl (Server.nobody_of late)
      | endGame => exact Server.nobody_of late
      | _ => exact late
  | stopPreparation pending was => cases state.trans was
  | fieldsAccepted pending full valid fresh =>
      by_cases waiting : room.session.state = .waitStart
      · exact Or.inr ⟨rfl, full, valid, waiting⟩
      · exact Or.inl (Or.inr ⟨full, valid, waiting⟩)
  | oneLeft pending one =>
      have kept : room.session.evictInvalid.players = room.session.players := players
      have someone : ¬ ∀ i, room.session.evictInvalid.players i = none := by
        rw [← Session.count_zero_iff]
        omega
      obtain ⟨i, seated⟩ := not_forall.mp someone
      have seated := Option.isSome_iff_ne_none.mpr seated
      have said := congrFun told i
      simp only [waitAgain, seated, ↓reduceIte, evictInvalid,
        without_session, without_told] at said
      exact absurd said.symm (louder i _)
  | noneLeft pending left =>
      have nobody := Session.count_zero_iff.mp left
      have kept : room.session.evictInvalid.players = room.session.players := players
      exact Or.inl (Or.inl fun i => kept ▸ nobody i)
  | startGame pending was => cases state.trans was
  | endTurn pending was => cases state.trans was
  | @gameOver _ h _ _ _ session =>
      obtain ⟨said, heard⟩ := tellResult_told ((room.without h).withSession session) 0
      exact absurd (heard.symm.trans (congrFun told 0)).symm (louder 0 said)
  | changeTurn pending was => cases state.trans was
  | endGame pending seated =>
      obtain ⟨i, c, there⟩ := seated
      cases (congrFun players i).trans there

end Room

namespace Server

/-- The session keeps its state, players, fields and turn, no message is queued and
no client is disconnected. -/
structure Harmless (srv srv' : Server) (s : SessionId) : Prop where
  state : (srv'.sessions s).state = (srv.sessions s).state
  players : (srv'.sessions s).players = (srv.sessions s).players
  fields : (srv'.sessions s).fields = (srv.sessions s).fields
  turn : (srv'.sessions s).curTurnPlayerIdx = (srv.sessions s).curTurnPlayerIdx
  toSendMsg : srv'.toSendMsg = srv.toSendMsg
  clients : srv'.clients = srv.clients

def Stale (s : SessionId) (id : HandlerId) (es : List Event) : Prop :=
  ∃ before e rest srv srv' i c, es = before ++ e :: rest ∧ run init before = .ok srv ∧
    srv.step e = .ok srv' ∧
    (∃ handler ∈ srv.timeoutHandlers, handler.id = id ∧ handler.session = s) ∧
    (srv.sessions s).players i = some c ∧ (srv'.sessions s).players i = none

theorem Harmless.of_eq (srv : Server) (s : SessionId) : Harmless srv srv s :=
  ⟨rfl, rfl, rfl, rfl, rfl, rfl⟩

theorem checkStartFields_valid {srv : Server} {s : SessionId} (full : (srv.sessions s).Full)
    (valid : ∀ i, ((srv.sessions s).fields i).isValidStartField = true)
    (later : (srv.sessions s).state ≠ .waitStart) :
    srv.checkStartFields s = .ok (srv.addTimeoutHandler .gameStart s waitDuration) := by
  have each (i : PlayerIdx) : srv.checkStartField s i = .ok srv := by
    obtain ⟨c, seated⟩ := full i
    simp [checkStartField, seated, valid i]
  simp [checkStartFields, each, Session.full_iff.mp full, sendStartFields, later, Bind.bind,
    Except.bind]

theorem checkStartFields_nobody {srv : Server} {s : SessionId}
    (nobody : ∀ i, (srv.sessions s).players i = none) : srv.checkStartFields s = .ok srv := by
  have each (i : PlayerIdx) : srv.checkStartField s i = .ok srv := by
    simp [checkStartField, nobody i]
  simp [checkStartFields, each, Session.count_zero_iff.mpr nobody, Bind.bind, Except.bind]

theorem endGame_nobody {srv : Server} {s : SessionId}
    (nobody : ∀ i, (srv.sessions s).players i = none) : srv.endGame s = .ok srv := by
  have each (i : PlayerIdx) : srv.endGameFor s i = .ok srv := by
    simp [endGameFor, nobody i]
  simp [endGame, each, Bind.bind, Except.bind]

theorem timeoutEvent_shielded {srv srv' : Server} {s : SessionId} {kind : TimeoutKind}
    (shielded : (srv.sessions s).Shielded kind) {now : Int64} {draws : List Nat}
    (done : srv.timeoutEvent kind s now draws = .ok srv') : Harmless srv srv' s := by
  have unchanged (same : srv.timeoutEvent kind s now draws = .ok srv) : Harmless srv srv' s := by
    obtain rfl := Except.ok.inj (same.symm.trans done)
    exact .of_eq srv s
  cases kind with
  | preparation => exact unchanged (if_pos shielded)
  | checkStartFields =>
      rcases shielded with nobody | ⟨full, valid, later⟩
      · exact unchanged (checkStartFields_nobody nobody)
      · obtain rfl := Except.ok.inj ((checkStartFields_valid full valid later).symm.trans done)
        exact ⟨rfl, rfl, rfl, rfl, rfl, rfl⟩
  | gameStart => exact unchanged (if_pos shielded)
  | gameTurn => exact unchanged (if_pos shielded)
  | changeTurn => exact unchanged (if_pos shielded)
  | endGame => exact unchanged (endGame_nobody shielded)

theorem sendStartFieldsTo_seated {srv : Server} (sound : srv.Sound) {s : SessionId}
    {i : PlayerIdx} {c : ClientId} (seated : (srv.sessions s).players i = some c) :
    ∃ first second, srv.sendStartFieldsTo s i = .ok ((srv.push c first).push c second) := by
  refine ⟨Message.new (.gameField ((srv.sessions s).fields i) true),
    Message.new (.gameField ((srv.sessions s).fields (getEnemyIdx i)).getForEnemy false), ?_⟩
  have again : ((srv.push c (Message.new
      (.gameField ((srv.sessions s).fields i) true))).sessions s).players i = some c := seated
  simp only [sendStartFieldsTo, sendToPlayer_seated sound seated, Bind.bind, Except.bind]
  exact sendToPlayer_seated (sound.push _ _) again _

/-- The fields are shown to the players when the check is passed before the start. -/
theorem checkStartFields_sends {srv srv' : Server} (sound : srv.Sound) {s : SessionId}
    (full : (srv.sessions s).Full)
    (valid : ∀ i, ((srv.sessions s).fields i).isValidStartField = true)
    (waiting : (srv.sessions s).state = .waitStart)
    (done : srv.checkStartFields s = .ok srv') : srv'.toSendMsg ≠ srv.toSendMsg := by
  have each (i : PlayerIdx) : srv.checkStartField s i = .ok srv := by
    obtain ⟨c, seated⟩ := full i
    simp [checkStartField, seated, valid i]
  obtain ⟨a, first⟩ := full 0
  obtain ⟨b, second⟩ := full 1
  have other : a ≠ b := by
    rintro rfl
    exact sound.apart s a first second
  obtain ⟨m₁, m₂, own⟩ := sendStartFieldsTo_seated sound first
  have sound₁ : ((srv.push a m₁).push a m₂).Sound := (sound.push _ _).push _ _
  obtain ⟨m₃, m₄, enemy⟩ := sendStartFieldsTo_seated sound₁
    (show ((srv.sessions s).players 1 = some b) from second)
  have sent : srv.checkStartFields s = .ok (((((srv.push a m₁).push a m₂).push b m₃).push b
      m₄).addTimeoutHandler .gameStart s waitDuration) := by
    simp [checkStartFields, each, Session.full_iff.mp full, sendStartFields, waiting, own, enemy,
      Bind.bind, Except.bind]
  obtain rfl := Except.ok.inj (sent.symm.trans done)
  intro same
  have longer := congrArg List.length (congrFun same a)
  simp [addTimeoutHandler, push, other] at longer

/-- A handler that fires in a state its guard lets through changes something. -/
theorem fired_exposed {srv srv' : Server} (inv : srv.Inv) {handler : Handler}
    (member : handler ∈ srv.timeoutHandlers) {sec usec : Int}
    (fired : (handler.timer.process sec usec).1 = true) {now : Int64} {draws : List Nat}
    (done : srv.processTimeout handler sec usec now draws = .ok srv')
    (harmless : Harmless srv srv' handler.session) :
    (srv.sessions handler.session).Shielded handler.kind := by
  obtain ⟨room', step, shows_⟩ := (processTimeout_fired inv member fired now draws).elim done
  have session := shows_.session
  have told : room'.told = (srv.room handler.session).told := by
    rw [← shows_.here]
    simp only [room, harmless.players, harmless.toSendMsg]
  have state := harmless.state
  have players := harmless.players
  rw [shows_.session] at state players
  rcases step.shielded state players told with shielded | ⟨kind, full, valid, waiting⟩
  · exact shielded
  · exfalso
    have sound := inv.sound.setTimer handler.id (handler.timer.process sec usec).2
    unfold processTimeout at done
    simp only [fired, ↓reduceIte, kind, timeoutEvent] at done
    obtain ⟨srv₁, checked, dropped⟩ := bind_ok done
    obtain rfl := Except.ok.inj dropped
    exact checkStartFields_sends sound full valid waiting checked harmless.toSendMsg

/-- A handler that fires is harmless exactly if the guard of its event holds. -/
theorem fired_harmless_iff {srv srv' : Server} (inv : srv.Inv) {handler : Handler}
    (member : handler ∈ srv.timeoutHandlers) {sec usec : Int}
    (fired : (handler.timer.process sec usec).1 = true) {now : Int64} {draws : List Nat}
    (done : srv.processTimeout handler sec usec now draws = .ok srv') :
    Harmless srv srv' handler.session ↔ (srv.sessions handler.session).Shielded handler.kind := by
  refine ⟨fired_exposed inv member fired done, fun shielded => ?_⟩
  unfold processTimeout at done
  simp only [fired, ↓reduceIte] at done
  obtain ⟨srv₁, event, dropped⟩ := bind_ok done
  obtain rfl := Except.ok.inj dropped
  obtain ⟨state, players, fields, turn, toSendMsg, clients⟩ :=
    timeoutEvent_shielded
      (show ((srv.setTimer handler.id _).sessions handler.session).Shielded _ from shielded) event
  exact ⟨state, players, fields, turn, toSendMsg, clients⟩

/-- What holds of the server before and after each firing, in the run, of a handler
that has outlived a member of its session. -/
def AtStaleFirings (P : Server → Handler → Server → Prop) (es : List Event) : Prop :=
  ∀ before handler sec usec now draws rest srv srv',
    es = before ++ .timer handler.id sec usec now draws :: rest →
    run init before = .ok srv → handler ∈ srv.timeoutHandlers →
    (handler.timer.process sec usec).1 = true →
    srv.step (.timer handler.id sec usec now draws) = .ok srv' →
    Stale handler.session handler.id before → P srv handler srv'

theorem step_timer {srv : Server} (handlers : srv.Handlers) {handler : Handler}
    (member : handler ∈ srv.timeoutHandlers) (sec usec : Int) (now : Int64) (draws : List Nat) :
    srv.step (.timer handler.id sec usec now draws) =
      srv.processTimeout handler sec usec now draws := by
  simp only [step]
  split
  · rename_i absent
    have := List.find?_eq_none.mp absent handler member
    simp at this
  · rename_i found here
    have inside := List.mem_of_find?_eq_some here
    have same : found.id = handler.id := by simpa using List.find?_some here
    rw [handlers.unique found inside handler member same]

end Server

/-- In every run, the firings of handlers that have outlived a member of their
session are all harmless exactly if each of them meets its guard. -/
theorem stale_harmless_iff (es : List Server.Event) :
    Server.AtStaleFirings (fun srv handler srv' => Server.Harmless srv srv' handler.session) es ↔
      Server.AtStaleFirings (fun srv handler _ =>
        (srv.sessions handler.session).Shielded handler.kind) es := by
  unfold Server.AtStaleFirings
  refine forall₅_congr fun before handler sec usec now => ?_
  refine forall₄_congr fun draws rest srv srv' => ?_
  refine imp_congr_right fun _ => imp_congr_right fun done => imp_congr_right fun member =>
    imp_congr_right fun fired => imp_congr_right fun stepped => imp_congr_right fun _ => ?_
  have inv := Server.run_inv done
  rw [Server.step_timer inv.sound.handlers member] at stepped
  exact Server.fired_harmless_iff inv member fired stepped

/-- The second player leaves when the field check of his game is pending; it fires
in the preparation of the next game. -/
def checkedEarly : List Server.Event :=
  [.accept, .accept, .message 0 ⟨1, .gameSessionReq⟩ 0, .message 1 ⟨1, .gameSessionReq⟩ 0,
    .timer 0 71 0 71 [], .broken 1, .accept, .message 2 ⟨1, .gameSessionReq⟩ 72]

theorem checkedEarly_harm : ¬ ∀ es, Server.AtStaleFirings
    (fun srv handler srv' => Server.Harmless srv srv' handler.session) es := by
  intro harmless
  have fired := Server.run_after (checkedEarly ++ [.timer 1 3 0 75 []]) (by decide +kernel)
  obtain ⟨srv, done, stepped⟩ := (run_snoc_ok Server.step).mp fired
  obtain rfl := Server.after_eq done
  obtain ⟨handler, member, id, session, expired⟩ :
      ∃ handler ∈ (Server.after checkedEarly).timeoutHandlers,
        handler.id = 1 ∧ handler.session = 0 ∧ (handler.timer.process 3 0).1 = true := by
    decide +kernel
  have stale : Server.Stale 0 1 checkedEarly := by
    have six := Server.run_after (checkedEarly.take 5 ++ [.broken 1]) (by decide +kernel)
    obtain ⟨srv, five, left⟩ := (run_snoc_ok Server.step).mp six
    obtain rfl := Server.after_eq five
    exact ⟨checkedEarly.take 5, .broken 1, checkedEarly.drop 6, _, _, 1, 1, rfl, five, left,
      by decide +kernel, by decide +kernel, by decide +kernel⟩
  rw [← id] at stepped fired stale
  rw [← session] at stale
  have players := (harmless _ checkedEarly handler 3 0 75 [] [] _ _ rfl done member expired
    stepped stale).players
  have seated := congrFun players 0
  rw [session, id] at seated
  revert seated
  decide +kernel

end Battleship
