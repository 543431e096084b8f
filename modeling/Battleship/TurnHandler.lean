import Battleship.TimerPass

/-! The handler to which `turn_timeout` points when `end_turn` stops it. The pointer does
dangle after a player has left during a turn, since the server deletes elapsed handlers
without telling the session; but then no turn is played, and the next turn sets it anew. -/
namespace Battleship

open Runs

namespace Timers

/-- A call of `end_turn`: its session, the server, the lists and the handler that is being
processed at that moment. -/
structure EndTurnCall where
  s : SessionId
  srv : Server
  handlers : List HandlerId
  tmp : List HandlerId
  processed : Option HandlerId

/-- The calls of `end_turn`, by `_process_game_move_msg` for a move that was set, and by the
event of a `GameTurnTimeout` that has just elapsed. -/
inductive EndsTurn (timers : Timers) : TimerTick → EndTurnCall → Prop where
  | move {c : ClientId} {msg : Message} {now : Int64} {s : SessionId} {x y : Int32}
      {session : Session} (outside : timers.passed = none)
      (sender : timers.srv.gameSessionOf c = some s) (body : msg.body = .gameMove x y)
      (playing : (timers.srv.sessions s).Playing)
      (set : (timers.srv.sessions s).setLastShot ⟨x.toInt, y.toInt⟩ c = some session) :
      EndsTurn timers (.event (.message c msg now))
        ⟨s, timers.srv.setSession s session, timers.handlers, timers.tmp, none⟩
  | timer {now : Int64} {draws : List Nat} {sec usec : Int} {h : Handler}
      {rest : List HandlerId} (passed : timers.passed = some (sec, usec))
      (handlers : timers.handlers = h.id :: rest) (found : timers.srv.handler? h.id = some h)
      (kind : h.kind = .gameTurn) (fired : (h.timer.process sec usec).1 = true) :
      EndsTurn timers (.turn now draws)
        ⟨h.session, timers.srv.setTimer h.id (h.timer.process sec usec).2, rest, timers.tmp,
          some h.id⟩

/-- The first thing the tick does is the call, and what follows registers no handler and
changes none that is left. -/
theorem EndsTurn.first {timers : Timers} {tick : TimerTick} {call : EndTurnCall}
    (ends : timers.EndsTurn tick call) : ∃ rest : Server → Except Fault Timers,
      timers.step tick = call.srv.endTurn call.s >>= rest ∧
      ∀ srv timers', rest srv = .ok timers' → timers'.srv.nextHandler = srv.nextHandler ∧
        timers'.srv.timeoutHandlers ⊆ srv.timeoutHandlers := by
  cases ends with
  -- `_process_game_move_msg`: behind the call there is only the receipt.
  | @move c msg now s x y session outside sender body playing set =>
      have alive : (timers.srv.clients c).isSome := by
        simp [Server.gameSessionOf_eq.mp sender]
      have playing : (timers.srv.sessions s).state = .gameTurn ∨
          (timers.srv.sessions s).state = .processTurn := playing
      have processed : timers.srv.processMsg c msg now =
          (timers.srv.setSession s session).endTurn s >>= fun srv =>
            if msg.type ≠ .receipt then srv.sendMsg c (Message.new (.receipt msg.id)) else .ok srv := by
        simp only [Server.processMsg, body, Server.processGameMoveMsg, sender, playing, ↓reduceIte,
          set]
      simp only [step, outside, Server.Event.isTimer, and_self, ↓reduceIte, Server.step, alive,
        processed, bind_assoc]
      refine ⟨_, rfl, fun srv timers' done => ?_⟩
      obtain ⟨srv', answered, same⟩ := bind_ok done
      obtain rfl := Except.ok.inj same
      split_ifs at answered
      · have sent := Server.of_mute ((srv.sendMsg_onlySends c _).elim answered)
        exact ⟨sent.2.1, sent.1 ▸ List.Subset.refl _⟩
      · obtain rfl := Except.ok.inj answered
        exact ⟨rfl, List.Subset.refl _⟩
  -- `GameTurnTimeout`: behind the call the handler is kept or deleted.
  | @timer now draws sec usec h rest passed handlers found kind fired =>
      have processed : timers.srv.processHandler h sec usec now draws =
          (timers.srv.setTimer h.id (h.timer.process sec usec).2).endTurn h.session := by
        simp [Server.processHandler, fired, kind, Server.timeoutEvent]
      simp only [step, passed, takeTurn, handlers, found, processed]
      refine ⟨_, rfl, fun srv timers' done => ?_⟩
      split at done
      · cases done
      · split_ifs at done
        · obtain rfl := Except.ok.inj done
          exact ⟨rfl, List.Subset.refl _⟩
        · obtain rfl := Except.ok.inj done
          exact ⟨rfl, List.filter_subset_self _⟩

/-- The turn that the session is playing began when the handler was registered. -/
def StartedTurn (ticks : List TimerTick) (s : SessionId) (t : HandlerId) : Prop :=
  ∃ before tick after timers₁ timers₂, ticks = before ++ tick :: after ∧
    run init before = .ok timers₁ ∧ timers₁.step tick = .ok timers₂ ∧
    (timers₁.srv.sessions s).state ≠ .gameTurn ∧
    timers₁.srv.nextHandler ≤ t ∧ t < timers₂.srv.nextHandler ∧
    AllStates step (fun timers => (timers.srv.sessions s).state = .gameTurn) timers₂ after

theorem StartedTurn.snoc {ticks : List TimerTick} {s : SessionId} {t : HandlerId}
    {timers timers' : Timers} {tick : TimerTick} (started : StartedTurn ticks s t)
    (done : run init ticks = .ok timers) (stepped : timers.step tick = .ok timers')
    (turn : (timers'.srv.sessions s).state = .gameTurn) : StartedTurn (ticks ++ [tick]) s t := by
  obtain ⟨before, first, after, timers₁, timers₂, rfl, ran, begun, other, low, high, states⟩ :=
    started
  refine ⟨before, first, after ++ [tick], timers₁, timers₂, by simp, ran, begun, other, low, high, ?_⟩
  obtain ⟨timers₃, earlier, later⟩ := (run_append_ok step).mp done
  obtain rfl := Except.ok.inj (ran.symm.trans earlier)
  obtain ⟨timers₄, again, rest⟩ := run_cons step later
  obtain rfl := Except.ok.inj (begun.symm.trans again)
  exact states.snoc step rest stepped turn

/-- While a turn is played, its session knows the handler that was registered for it. -/
theorem turn_started {ticks : List TimerTick} {timers : Timers}
    (done : run init ticks = .ok timers) : ∀ s t, (timers.srv.sessions s).state = .gameTurn →
      (timers.srv.sessions s).turnTimeout = some t → StartedTurn ticks s t := by
  refine run_history step (fun ticks timers => ∀ s t, (timers.srv.sessions s).state = .gameTurn →
    (timers.srv.sessions s).turnTimeout = some t → StartedTurn ticks s t) ?_ ?_ done
  · intro s t turn
    cases turn
  intro ticks timers tick timers' before ih stepped s t turn running
  rcases step_srv (run_inv before) stepped with same | ⟨e, moved⟩
  · rw [same] at turn running
    exact (ih s t turn running).snoc before stepped (same ▸ turn)
  · rcases Server.step_turns moved s turn running with ⟨earlier, known⟩ | ⟨other, rfl, new⟩
    · exact (ih s t earlier known).snoc before stepped turn
    · exact ⟨ticks, tick, [], timers, timers', rfl, before, stepped, other, le_rfl, new, turn⟩

/-- The handler of the turn is running and is one of the two lists. -/
theorem turn_handler {timers : Timers} (inv : timers.Inv) {s : SessionId}
    (turn : (timers.srv.sessions s).state = .gameTurn) :
    ∃ t, (timers.srv.sessions s).turnTimeout = some t ∧ t ∈ timers.tmp ++ timers.handlers ∧
      ∃ h ∈ timers.srv.timeoutHandlers, h.id = t ∧ h.kind = .gameTurn ∧ h.session = s := by
  obtain ⟨t, kind, ⟨h, member, id, same, owned, _⟩, ends, known⟩ :=
    (inv.inv.good s).running ⟨.gameTurn, turn⟩
  have running : (timers.srv.sessions s).turnTimeout = some t := known turn
  have state : (timers.srv.sessions s).state = .gameTurn := turn
  refine ⟨t, running, ?_, h, member, id, ?_, owned⟩
  · rw [← inv.ids]
    exact List.mem_map.mpr ⟨h, member, id⟩
  · cases kind <;> simp_all [Session.EndedBy]

end Timers

/-- Whenever `end_turn` gets past its guard, `turn_timeout` is the handler that was
registered for the turn that is being played, and that handler is not deleted: it stands
in the list of the server, in `tmp`, or is being processed. -/
theorem turn_handler_valid {ticks : List TimerTick} {timers : Timers}
    (ran : Timers.run Timers.init ticks = .ok timers) {tick : TimerTick}
    {call : Timers.EndTurnCall} (ends : timers.EndsTurn tick call)
    (guard : (call.srv.sessions call.s).state = .gameTurn) :
    ∃ t, (call.srv.sessions call.s).turnTimeout = some t ∧ Timers.StartedTurn ticks call.s t ∧
      (∃ h ∈ call.srv.timeoutHandlers, h.id = t ∧ h.kind = .gameTurn ∧ h.session = call.s) ∧
      (t ∈ call.handlers ∨ t ∈ call.tmp ∨ call.processed = some t) := by
  have inv := Timers.run_inv ran
  cases ends with
  | @move c msg now s x y session outside sender body playing set =>
      -- the move is set before, which leaves the turn and its handler as they were
      have kept : session.state = (timers.srv.sessions s).state ∧
          session.turnTimeout = (timers.srv.sessions s).turnTimeout := by
        unfold Session.setLastShot at set
        split_ifs at set
        obtain rfl := Option.some.inj set
        exact ⟨rfl, rfl⟩
      have here : (timers.srv.setSession s session).sessions s = session := Function.update_self ..
      have turn : (timers.srv.sessions s).state = .gameTurn := by
        rw [← kept.1, ← here]
        exact guard
      obtain ⟨t, running, listed, h, member, known⟩ := Timers.turn_handler inv turn
      refine ⟨t, ?_, Timers.turn_started ran s t turn running, ⟨h, member, known⟩, ?_⟩
      · show ((timers.srv.setSession s session).sessions s).turnTimeout = some t
        rw [here, kept.2, running]
      · rcases List.mem_append.mp listed with tmp | handlers
        · exact .inr (.inl tmp)
        · exact .inl handlers
  | @timer now draws sec usec h rest passed handlers found kind fired =>
      have turn : (timers.srv.sessions h.session).state = .gameTurn := guard
      obtain ⟨t, running, listed, h', member, rfl, known⟩ := Timers.turn_handler inv turn
      refine ⟨h'.id, running, Timers.turn_started ran _ _ turn running, ?_, ?_⟩
      · refine ⟨_, Server.mem_setTimer.mpr ⟨h', member, rfl⟩, ?_⟩
        split_ifs <;> exact ⟨rfl, known⟩
      · rw [handlers] at listed
        rcases List.mem_append.mp listed with tmp | front
        · exact .inr (.inl tmp)
        · rcases List.mem_cons.mp front with here | behind
          · exact .inr (.inr (congrArg some here.symm))
          · exact .inl behind

/-! A game is opened in passes of a second, in which each handler fires that the one before
has registered. -/

def openingTicks : List TimerTick :=
  [.event .accept, .event .accept,
    .event (.message 0 ⟨1, .gameSessionReq⟩ 0), .event (.message 1 ⟨1, .gameSessionReq⟩ 0),
    .event (.message 0 ⟨2, .gameField openingField true⟩ 0),
    .event (.message 1 ⟨2, .gameField openingField true⟩ 0),
    .pass 69 0, .turn 0 [], .swap,
    .pass 1 0, .turn 0 [], .turn 0 [], .swap,
    .pass 1 0, .turn 0 [], .turn 0 [], .swap,
    .pass 1 0, .turn 0 [0], .turn 0 [], .swap]

/-- The first player moves in time, and the handler of his turn is stopped. -/
theorem turn_handler_valid_opening : ∃ timers call,
    Timers.run Timers.init openingTicks = .ok timers ∧
      timers.EndsTurn (.event (.message 0 ⟨3, .gameMove 3 4⟩ 0)) call ∧
      ∃ t, (call.srv.sessions call.s).turnTimeout = some t ∧
        Timers.StartedTurn openingTicks call.s t ∧
        (∃ h ∈ call.srv.timeoutHandlers, h.id = t ∧ h.kind = .gameTurn ∧ h.session = call.s) ∧
        (t ∈ call.handlers ∨ t ∈ call.tmp ∨ call.processed = some t) := by
  obtain ⟨timers, ran, seen⟩ := ok_of_map
    (fun timers : Timers => (timers.passed, timers.srv.gameSessionOf 0,
      (timers.srv.sessions 0).state, ((timers.srv.sessions 0).setLastShot ⟨3, 4⟩ 0).map (·.state)))
    (show (Timers.run Timers.init openingTicks).map _ =
      .ok (none, some 0, .gameTurn, some .gameTurn) by decide +kernel)
  simp only [Prod.mk.injEq, Option.map_eq_some_iff] at seen
  obtain ⟨outside, sender, turn, session, set, state⟩ := seen
  have ends : timers.EndsTurn (.event (.message 0 ⟨3, .gameMove 3 4⟩ 0)) _ :=
    .move outside sender rfl (.inl turn) set
  exact ⟨timers, _, ran, ends, turn_handler_valid ran ends (by simpa [Server.setSession] using state)⟩

end Battleship
