import Battleship.TimerCharge
import Battleship.Muted

/-! What the operations of the server do to the list of handlers, in its order: an event
registers at most one handler, behind the others, and stops at most one, the handler of
the turn that it ends. The handler of a new turn is the one that has just been registered. -/
namespace Battleship

open Runs

def Handler.halt (stopped : Option HandlerId) (h : Handler) : Handler :=
  if some h.id = stopped then { h with timer := h.timer.stop } else h

@[simp] theorem Handler.halt_id (stopped : Option HandlerId) (h : Handler) :
    (h.halt stopped).id = h.id := by
  unfold halt
  split_ifs <;> rfl

@[simp] theorem Handler.halt_kind (stopped : Option HandlerId) (h : Handler) :
    (h.halt stopped).kind = h.kind := by
  unfold halt
  split_ifs <;> rfl

@[simp] theorem Handler.halt_session (stopped : Option HandlerId) (h : Handler) :
    (h.halt stopped).session = h.session := by
  unfold halt
  split_ifs <;> rfl

@[simp] theorem Handler.halt_none : Handler.halt none = fun h => h := by
  funext h
  simp [halt]

theorem Handler.halt_other {stopped : Option HandlerId} {h : Handler}
    (other : some h.id ≠ stopped) : h.halt stopped = h := if_neg other

def TimeoutKind.leadsTo : TimeoutKind → List TimeoutKind
  | .preparation => [.checkStartFields]
  | .checkStartFields => [.gameStart]
  | .gameStart => [.gameTurn]
  | .gameTurn => [.changeTurn]
  | .changeTurn => [.gameTurn, .endGame]
  | .endGame => []

namespace Server

structure Still (srv srv' : Server) : Prop where
  handlers : srv'.timeoutHandlers = srv.timeoutHandlers
  next : srv'.nextHandler = srv.nextHandler
  kept : ∀ r t, (srv'.sessions r).turnTimeout = some t → (srv.sessions r).turnTimeout = some t
  begun : ∀ r, (srv'.sessions r).state = .gameTurn → (srv.sessions r).state = .gameTurn

def enrolled (srv : Server) (s : SessionId) (kind : TimeoutKind) : Handler :=
  ⟨srv.nextHandler, kind, s, ⟨kind.duration, 0⟩⟩

/-- For session `s` a handler of the kind is registered, if there is one, and then the
handler `stopped` is stopped, if there is one. -/
structure Enrolls (s : SessionId) (kind : Option TimeoutKind) (stopped : Option HandlerId)
    (srv srv' : Server) : Prop where
  handlers : srv'.timeoutHandlers =
    (srv.timeoutHandlers ++ (kind.map (srv.enrolled s)).toList).map (Handler.halt stopped)
  next : srv'.nextHandler = srv.nextHandler + kind.toList.length
  kept : ∀ r t, (srv'.sessions r).turnTimeout = some t →
    (srv.sessions r).turnTimeout = some t ∨ (r = s ∧ kind = some .gameTurn)
  begun : ∀ r, (srv'.sessions r).state = .gameTurn →
    (srv.sessions r).state = .gameTurn ∨ (r = s ∧ kind = some .gameTurn)
  turn : kind = some .gameTurn → (srv.sessions s).state ≠ .gameTurn ∧
    (srv'.sessions s).turnTimeout = some srv.nextHandler
  stops : ∀ t, stopped = some t → kind = some .changeTurn ∧
    (srv.sessions s).state = .gameTurn ∧ (srv.sessions s).turnTimeout = some t

section Relations
variable {s : SessionId} {kind : Option TimeoutKind} {stopped : Option HandlerId}
  {srv srv' srv'' : Server}

theorem Still.refl (srv : Server) : Still srv srv :=
  ⟨rfl, rfl, fun _ _ same => same, fun _ same => same⟩

theorem Still.trans (first : Still srv srv') (second : Still srv' srv'') : Still srv srv'' :=
  ⟨second.handlers.trans first.handlers, second.next.trans first.next,
    fun r t kept => first.kept r t (second.kept r t kept),
    fun r begun => first.begun r (second.begun r begun)⟩

theorem of_mute (same : srv'.mute = srv.mute) : srv'.timeoutHandlers = srv.timeoutHandlers ∧
    srv'.nextHandler = srv.nextHandler ∧ srv'.sessions = srv.sessions := by
  obtain ⟨queues, rfl⟩ := mute_eq same.symm
  exact ⟨rfl, rfl, rfl⟩

theorem Still.of_mute (same : srv'.mute = srv.mute) : Still srv srv' := by
  obtain ⟨handlers, next, sessions⟩ := Server.of_mute same
  exact ⟨handlers, next, fun r t kept => sessions ▸ kept, fun r begun => sessions ▸ begun⟩

/-- Only session `s` changes, and it begins no turn. -/
theorem setSession_still (srv : Server) (s : SessionId) (session : Session)
    (kept : session.turnTimeout = (srv.sessions s).turnTimeout ∨ session.turnTimeout = none)
    (begun : session.state = .gameTurn → (srv.sessions s).state = .gameTurn) :
    Still srv (srv.setSession s session) := by
  refine ⟨rfl, rfl, fun r t same => ?_, fun r same => ?_⟩
  · by_cases here : r = s
    · subst here
      have same : session.turnTimeout = some t := by simpa [setSession] using same
      rcases kept with kept | none
      · exact kept.symm.trans same
      · cases none.symm.trans same
    · simpa [setSession, here] using same
  · by_cases here : r = s
    · subst here
      exact begun (by simpa [setSession] using same)
    · simpa [setSession, here] using same

theorem setGameState_still (srv : Server) (s : SessionId) (state : GameState)
    (other : state ≠ .gameTurn) : Still srv (srv.setGameState s state) :=
  srv.setSession_still s _ (.inl rfl) fun begun => absurd begun other

theorem Still.enrolls (still : Still srv srv') (s : SessionId) : Enrolls s none none srv srv' := by
  refine ⟨?_, still.next, fun r t kept => .inl (still.kept r t kept),
    fun r begun => .inl (still.begun r begun), nofun, nofun⟩
  simp [still.handlers]

theorem Enrolls.after (still : Still srv srv') (enrolls : Enrolls s kind stopped srv' srv'')
    (before : kind = some .gameTurn → (srv.sessions s).state ≠ .gameTurn) :
    Enrolls s kind stopped srv srv'' := by
  have same : srv'.enrolled s = srv.enrolled s := by
    unfold enrolled
    rw [still.next]
  refine ⟨?_, ?_, fun r t kept => ?_, fun r begun => ?_, fun turn => ⟨before turn, ?_⟩, fun t stop => ?_⟩
  · rw [enrolls.handlers, still.handlers, same]
  · rw [enrolls.next, still.next]
  · exact (enrolls.kept r t kept).imp_left (still.kept r t)
  · exact (enrolls.begun r begun).imp_left (still.begun r)
  · rw [(enrolls.turn turn).2, still.next]
  · obtain ⟨ends, state, running⟩ := enrolls.stops t stop
    exact ⟨ends, still.begun s state, still.kept s t running⟩

theorem Enrolls.muted (enrolls : Enrolls s kind stopped srv srv') (same : srv''.mute = srv'.mute) :
    Enrolls s kind stopped srv srv'' := by
  obtain ⟨handlers, next, sessions⟩ := of_mute same
  exact ⟨handlers.trans enrolls.handlers, next.trans enrolls.next, sessions ▸ enrolls.kept,
    sessions ▸ enrolls.begun, sessions ▸ enrolls.turn, enrolls.stops⟩

theorem addTimeoutHandler_enrolls (srv : Server) (s : SessionId) (kind : TimeoutKind)
    (other : kind ≠ .gameTurn) :
    Enrolls s (some kind) none srv (srv.addTimeoutHandler kind s kind.duration) := by
  refine ⟨?_, rfl, fun r t kept => .inl kept, fun r begun => .inl begun, fun turn => ?_, nofun⟩
  · simp [addTimeoutHandler, enrolled]
  · exact absurd (Option.some.inj turn) other

end Relations

def Within (fault : Fault) : Prop := fault ≠ .notEnabled

abbrev OnlySends (srv : Server) (x : Except Fault Server) : Prop :=
  Ends Within x fun srv' => srv'.mute = srv.mute

section Sending
variable (srv : Server) (s : SessionId) (i : PlayerIdx)

theorem OnlySends.bind {srv : Server} {x : Except Fault Server}
    {f : Server → Except Fault Server} (first : srv.OnlySends x)
    (next : ∀ srv' : Server, srv'.OnlySends (f srv')) : srv.OnlySends (x >>= f) :=
  Ends.bind first fun srv' same => (next srv').mono fun _ same' => same'.trans same

theorem sendMsg_onlySends (c : ClientId) (msg : Message) : srv.OnlySends (srv.sendMsg c msg) := by
  unfold sendMsg
  split
  · exact nofun
  · rfl

theorem sendToPlayer_onlySends (body : Body) : srv.OnlySends (srv.sendToPlayer s i body) := by
  unfold sendToPlayer
  split
  · exact nofun
  · exact srv.sendMsg_onlySends _ _

theorem sendCopy_onlySends (msg : Message) : srv.OnlySends (srv.sendCopy s i msg) := by
  unfold sendCopy
  split
  · rfl
  · split
    · rfl
    · exact srv.sendMsg_onlySends _ _

theorem sendForAll_onlySends (msg : Message) : srv.OnlySends (srv.sendForAll s msg) :=
  (srv.sendCopy_onlySends s 0 msg).bind fun srv' => srv'.sendCopy_onlySends s 1 msg

theorem sendGameState_onlySends : srv.OnlySends (srv.sendGameState s i) := by
  unfold sendGameState
  split
  · rfl
  · exact srv.sendMsg_onlySends _ _

theorem sendGameStateForAll_onlySends : srv.OnlySends (srv.sendGameStateForAll s) :=
  (srv.sendGameState_onlySends s 0).bind fun srv' => srv'.sendGameState_onlySends s 1

theorem sendStartFields_onlySends : srv.OnlySends (srv.sendStartFields s) := by
  have both (srv : Server) (i : PlayerIdx) : srv.OnlySends (srv.sendStartFieldsTo s i) :=
    (srv.sendToPlayer_onlySends s i _).bind fun srv' => srv'.sendToPlayer_onlySends s i _
  unfold sendStartFields
  split
  · rfl
  · exact (both srv 0).bind fun srv' => both srv' 1

theorem sendFields_onlySends : srv.OnlySends (srv.sendFields s) :=
  (srv.sendToPlayer_onlySends s _ _).bind fun srv' => srv'.sendToPlayer_onlySends s _ _

theorem sendGameResult_onlySends : srv.OnlySends (srv.sendGameResult s) :=
  (srv.sendToPlayer_onlySends s _ _).bind fun srv' => srv'.sendToPlayer_onlySends s _ _

end Sending

abbrev KeepsStill (srv : Server) (x : Except Fault Server) : Prop :=
  Ends Within x srv.Still

theorem OnlySends.still {srv : Server} {x : Except Fault Server} (sends : srv.OnlySends x) :
    srv.KeepsStill x := sends.mono fun _ same => .of_mute same

theorem KeepsStill.bind {srv : Server} {x : Except Fault Server}
    {f : Server → Except Fault Server} (first : srv.KeepsStill x)
    (next : ∀ srv' : Server, srv'.KeepsStill (f srv')) : srv.KeepsStill (x >>= f) :=
  Ends.bind first fun srv' still => (next srv').mono fun _ still' => still.trans still'

section Leaving
variable (srv : Server) (s : SessionId) (c : ClientId)

theorem freeSlot_still (i : PlayerIdx) :
    srv.Still (srv.setSession s ((srv.sessions s).freeSlot i)) := by
  refine srv.setSession_still s _ (.inl rfl) fun begun => ?_
  simp only [Session.freeSlot] at begun
  split_ifs at begun

theorem disconnectPlayer_still : srv.KeepsStill (srv.disconnectPlayer s c) := by
  unfold disconnectPlayer
  split
  · exact srv.freeSlot_still s _
  · exact (srv.sendGameStateForAll_onlySends s).still

theorem disconnectFromGameSession_still : srv.KeepsStill (srv.disconnectFromGameSession c) := by
  unfold disconnectFromGameSession
  split
  · exact nofun
  · exact Still.refl srv
  · refine (srv.disconnectPlayer_still _ c).bind fun srv' => ?_
    exact ⟨rfl, rfl, fun _ _ same => same, fun _ same => same⟩

theorem disconnectClient_still : srv.KeepsStill (srv.disconnectClient c) :=
  (srv.disconnectFromGameSession_still c).bind fun _ =>
    ⟨rfl, rfl, fun _ _ same => same, fun _ same => same⟩

theorem connBroken_still : srv.KeepsStill (srv.connBroken c) :=
  (srv.disconnectFromGameSession_still c).bind fun srv' => srv'.disconnectClient_still c

theorem checkStartField_still (i : PlayerIdx) : srv.KeepsStill (srv.checkStartField s i) := by
  unfold checkStartField
  split
  · exact Still.refl srv
  · split
    · exact Still.refl srv
    · exact srv.disconnectClient_still _

theorem endGameFor_still (i : PlayerIdx) : srv.KeepsStill (srv.endGameFor s i) := by
  unfold endGameFor
  split
  · exact Still.refl srv
  · exact srv.disconnectClient_still _

theorem setPlayer_waits {session session' : Session} {c : ClientId}
    (taken : session.setPlayer c = some session') :
    session'.turnTimeout = session.turnTimeout ∧ session'.state ≠ .gameTurn := by
  unfold Session.setPlayer at taken
  split_ifs at taken with full first <;> obtain rfl := Option.some.inj taken
  all_goals exact ⟨rfl, nofun⟩

theorem setGameSession_still : srv.Still ((srv.setGameSession c s).getD srv) := by
  cases joined : srv.setGameSession c s with
  | none => exact Still.refl srv
  | some srv₁ =>
      obtain ⟨_, session, taken, rfl⟩ := setGameSession_spec joined
      obtain ⟨timeout, waits⟩ := setPlayer_waits taken
      have still := srv.setSession_still s _ (.inl timeout) fun begun => absurd begun waits
      exact ⟨rfl, rfl, still.kept, still.begun⟩

theorem changeClientQueue_still : srv.Still (srv.changeClientQueue c).2 := by
  unfold changeClientQueue
  split <;> exact ⟨rfl, rfl, fun _ _ same => same, fun _ same => same⟩

theorem connectPlayerToGame_still : srv.Still (srv.connectPlayerToGame c).2 := by
  unfold connectPlayerToGame
  split
  · exact (srv.setGameSession_still _ c).trans (changeClientQueue_still _ c)
  · split_ifs
    · exact Still.refl srv
    · have opened : srv.Still { srv.setSession srv.sessionCount Session.new with
          sessionCount := srv.sessionCount + 1 } := by
        have still := srv.setSession_still srv.sessionCount Session.new (.inr rfl)
          (by simp [Session.new])
        exact ⟨rfl, rfl, still.kept, still.begun⟩
      exact opened.trans ((setGameSession_still _ _ c).trans (changeClientQueue_still _ c))

end Leaving

def halted (srv : Server) (t : HandlerId) : Server :=
  { srv with timeoutHandlers := srv.timeoutHandlers.map (Handler.halt (some t)) }

theorem stopTimeout_halts (srv : Server) (t : HandlerId) :
    Ends Within (srv.stopTimeout t) fun srv' => srv' = srv.halted t := by
  unfold stopTimeout
  split
  · exact nofun
  · refine congrArg (fun handlers => { srv with timeoutHandlers := handlers }) ?_
    refine List.map_congr_left fun h _ => ?_
    simp only [Handler.halt, Option.some.injEq]
    rfl

abbrev EnrollsIn (s : SessionId) (kinds : List TimeoutKind) (srv srv' : Server) : Prop :=
  ∃ kind stopped, Enrolls s kind stopped srv srv' ∧ ∀ k, kind = some k → k ∈ kinds

theorem Still.enrollsIn {srv srv' : Server} (still : srv.Still srv') (s : SessionId)
    (kinds : List TimeoutKind) : EnrollsIn s kinds srv srv' :=
  ⟨none, none, still.enrolls s, nofun⟩

section Events
variable (srv : Server) (s : SessionId)

theorem startPreparation_enrolls (now : Int64) : Ends Within (srv.startPreparation s now)
    (EnrollsIn s [.preparation] srv) := by
  unfold startPreparation
  split
  · exact (Still.refl srv).enrollsIn s _
  · refine Ends.bind (sendForAll_onlySends _ s _) fun srv' same => ?_
    have still := (srv.setGameState_still s _ (by simp)).trans (.of_mute same)
    exact ⟨_, none, (srv'.addTimeoutHandler_enrolls s _ (by simp)).after still (by simp), by simp⟩

theorem stopPreparation_enrolls : Ends Within (srv.stopPreparation s)
    (EnrollsIn s [.checkStartFields] srv) := by
  unfold stopPreparation
  split
  · exact (Still.refl srv).enrollsIn s _
  · refine Ends.bind (srv.sendForAll_onlySends s _) fun srv' same => ?_
    have still := (Still.of_mute same).trans
      (srv'.setGameState_still s .waitStart (by simp))
    have enrolls := (addTimeoutHandler_enrolls _ s .checkStartFields (by simp)).after
      still (by simp)
    refine (sendGameStateForAll_onlySends _ s).mono fun srv'' same' => ?_
    exact ⟨_, none, enrolls.muted same', by simp⟩

theorem checkStartFields_enrolls : Ends Within (srv.checkStartFields s)
    (EnrollsIn s [.gameStart] srv) := by
  refine Ends.bind (srv.checkStartField_still s 0) fun srv₁ still₁ => ?_
  refine Ends.bind (srv₁.checkStartField_still s 1) fun srv₂ still₂ => ?_
  have still := still₁.trans still₂
  split
  · refine Ends.bind (srv₂.sendStartFields_onlySends s) fun srv₃ same => ?_
    have still₃ := still.trans (.of_mute same)
    exact ⟨_, none, (srv₃.addTimeoutHandler_enrolls s _ (by simp)).after still₃ (by simp), by simp⟩
  · split
    · refine (sendGameStateForAll_onlySends _ s).mono fun srv₃ same => ?_
      refine Still.enrollsIn (still.trans (Still.trans ?_ (.of_mute same))) s _
      exact srv₂.setGameState_still s _ (by simp)
    · exact still.enrollsIn s _

theorem startNewTurn_enrolls (now : Int64) : Ends Within (srv.startNewTurn s now)
    (EnrollsIn s [.gameTurn] srv) := by
  unfold startNewTurn
  split
  · exact (Still.refl srv).enrollsIn s _
  · rename_i guard
    -- The guard lets WAIT_START and PROCESS_TURN through.
    have waits : (srv.sessions s).state ≠ .gameTurn := by
      intro turn
      exact guard (by simp [turn])
    refine Ends.bind (sendToPlayer_onlySends _ s _ _) fun srv₁ same₁ => ?_
    refine Ends.bind (sendToPlayer_onlySends _ s _ _) fun srv₂ same₂ => ?_
    obtain ⟨handlers, next, sessions⟩ := of_mute (same₂.trans same₁)
    have elsewhere (r : SessionId) (other : r ≠ s) : srv₂.sessions r = srv.sessions r := by
      rw [sessions]
      simp [setGameState, setSession, other]
    refine ⟨some .gameTurn, none, ⟨?_, ?_, fun r t kept => ?_, fun r begun => ?_,
      fun _ => ⟨waits, ?_⟩, by simp⟩, by simp⟩
    · show srv₂.timeoutHandlers ++ [srv₂.enrolled s .gameTurn] = _
      rw [handlers, show srv₂.enrolled s .gameTurn = srv.enrolled s .gameTurn by
        unfold enrolled
        rw [next]
        rfl]
      simp [setGameState, setSession]
    · exact congrArg (· + 1) next
    · by_cases here : r = s
      · exact .inr ⟨here, rfl⟩
      · simp only [setSession, Function.update_of_ne here, addTimeoutHandler,
          elsewhere r here] at kept
        exact .inl kept
    · by_cases here : r = s
      · exact .inr ⟨here, rfl⟩
      · simp only [setSession, Function.update_of_ne here, addTimeoutHandler,
          elsewhere r here] at begun
        exact .inl begun
    · simp only [setSession, Function.update_self, next]
      rfl

theorem startGame_enrolls (now : Int64) (draws : List Nat) :
    Ends Within (srv.startGame s now draws) (EnrollsIn s [.gameTurn] srv) := by
  unfold startGame
  split
  · exact (Still.refl srv).enrollsIn s _
  · rename_i guard
    have waits : (srv.sessions s).state ≠ .gameTurn := by
      intro turn
      exact guard (by simp [turn])
    split
    · exact nofun
    · refine (startNewTurn_enrolls _ s now).mono fun srv' ⟨kind, stopped, enrolls, inside⟩ => ?_
      refine ⟨kind, stopped, enrolls.after ?_ fun _ => waits, inside⟩
      exact srv.setSession_still s _ (.inl rfl) fun begun => begun

theorem changeTurnPlayer_enrolls (now : Int64) (draws : List Nat) :
    Ends Within (srv.changeTurnPlayer s now draws)
      (EnrollsIn s [.gameTurn, .endGame] srv) := by
  unfold changeTurnPlayer
  split
  · exact (Still.refl srv).enrollsIn s _
  · rename_i guard
    have waits : (srv.sessions s).state ≠ .gameTurn := by
      intro turn
      exact guard (by simp [turn])
    split
    · exact nofun
    · rename_i shotRes session shot
      obtain ⟨fields, rfl⟩ := Session.registerShot_frame shot
      refine Ends.bind (sendFields_onlySends _ s) fun srv₁ same => ?_
      have still : srv.Still srv₁ := by
        refine Still.trans ?_ (.of_mute same)
        exact srv.setSession_still s _ (.inl rfl) fun begun => begun
      have next {srv' : Server} (still : srv.Still srv') :
          Ends Within (srv'.startNewTurn s now) (EnrollsIn s [.gameTurn, .endGame] srv) := by
        refine (srv'.startNewTurn_enrolls s now).mono fun srv'' => ?_
        rintro ⟨kind, stopped, enrolls, inside⟩
        refine ⟨kind, stopped, enrolls.after still fun _ => waits, fun k new => ?_⟩
        exact List.mem_cons.mpr (.inl (List.mem_singleton.mp (inside k new)))
      split
      · refine Ends.bind (srv₁.sendGameResult_onlySends s) fun srv₂ same' => ?_
        have still₂ := still.trans (.of_mute same')
        exact ⟨_, none, (srv₂.addTimeoutHandler_enrolls s _ (by simp)).after still₂ (by simp), by simp⟩
      · split
        · refine next (still.trans (srv₁.setSession_still s _ (.inl rfl) fun begun => begun))
        · exact next still

theorem endTurn_stops : Ends Within (srv.endTurn s) fun srv' =>
    ((srv.sessions s).state ≠ .gameTurn ∧ srv' = srv) ∨ ((srv.sessions s).state = .gameTurn ∧
      Enrolls s (some .changeTurn) (srv.sessions s).turnTimeout srv srv') := by
  unfold endTurn
  split
  · rename_i guard
    exact .inl ⟨guard, rfl⟩
  · rename_i guard
    have turn : (srv.sessions s).state = .gameTurn := by simpa using guard
    refine Ends.bind (sendToPlayer_onlySends _ s _ _) fun srv₁ same₁ => ?_
    refine Ends.bind (sendToPlayer_onlySends _ s _ _) fun srv₂ same₂ => ?_
    have still := (srv.setGameState_still s .processTurn (by simp)).trans
      (.of_mute (same₂.trans same₁))
    have enrolls := (srv₂.addTimeoutHandler_enrolls s .changeTurn (by simp)).after still (by simp)
    have timeout : (srv₂.sessions s).turnTimeout = (srv.sessions s).turnTimeout := by
      obtain ⟨_, _, sessions⟩ := of_mute (same₂.trans same₁)
      simp [sessions, setGameState, setSession]
    dsimp only
    split
    -- No handler is known, so none is stopped.
    · rename_i unset
      have unset : (srv₂.sessions s).turnTimeout = none := unset
      rw [← timeout, unset]
      exact .inr ⟨turn, enrolls⟩
    · rename_i t running
      have running : (srv₂.sessions s).turnTimeout = some t := running
      rw [← timeout, running]
      refine Ends.bind (stopTimeout_halts _ t) fun srv₃ stop => .inr ⟨turn, ?_⟩
      subst stop
      have cleared := ((srv₂.addTimeoutHandler .changeTurn s waitDuration).halted t).setSession_still
        s { srv₂.sessions s with turnTimeout := none } (.inr rfl) fun begun => begun
      refine ⟨?_, enrolls.next, fun r t' kept => ?_, fun r begun => ?_, by simp, ?_⟩
      · exact congrArg (List.map (Handler.halt (some t))) (enrolls.handlers.trans (by simp))
      · exact enrolls.kept r t' (cleared.kept r t' kept)
      · exact enrolls.begun r (cleared.begun r begun)
      · rintro _ ⟨⟩
        exact ⟨rfl, turn, timeout ▸ running⟩

theorem endTurn_enrolls : Ends Within (srv.endTurn s) (EnrollsIn s [.changeTurn] srv) := by
  refine (srv.endTurn_stops s).mono fun srv' => ?_
  rintro (⟨_, rfl⟩ | ⟨_, enrolls⟩)
  · exact (Still.refl srv').enrollsIn s _
  · exact ⟨_, _, enrolls, by simp⟩

theorem endGame_enrolls : Ends Within (srv.endGame s) (EnrollsIn s [] srv) := by
  refine Ends.bind (srv.endGameFor_still s 0) fun srv₁ still₁ => ?_
  refine (srv₁.endGameFor_still s 1).mono fun srv₂ still₂ => ?_
  exact (still₁.trans still₂).enrollsIn s []

theorem timeoutEvent_enrolls (kind : TimeoutKind) (now : Int64) (draws : List Nat) :
    Ends Within (srv.timeoutEvent kind s now draws) (EnrollsIn s kind.leadsTo srv) := by
  cases kind with
  | preparation => exact srv.stopPreparation_enrolls s
  | checkStartFields => exact srv.checkStartFields_enrolls s
  | gameStart => exact srv.startGame_enrolls s now draws
  | gameTurn => exact srv.endTurn_enrolls s
  | changeTurn => exact srv.changeTurnPlayer_enrolls s now draws
  | endGame => exact srv.endGame_enrolls s

end Events

abbrev EnrollsSome (srv srv' : Server) : Prop :=
  ∃ s, EnrollsIn s [.preparation, .changeTurn] srv srv'

theorem Still.enrollsSome {srv srv' : Server} (still : srv.Still srv') : EnrollsSome srv srv' :=
  ⟨0, still.enrollsIn 0 _⟩

theorem EnrollsSome.muted {srv srv' srv'' : Server} (enrolls : EnrollsSome srv srv')
    (same : srv''.mute = srv'.mute) : EnrollsSome srv srv'' := by
  obtain ⟨s, kind, stopped, enrolls, inside⟩ := enrolls
  exact ⟨s, kind, stopped, enrolls.muted same, inside⟩

theorem EnrollsIn.after {s : SessionId} {kind : TimeoutKind} {srv srv' srv'' : Server}
    (still : srv.Still srv') (enrolls : EnrollsIn s [kind] srv' srv'')
    (known : kind ∈ [TimeoutKind.preparation, .changeTurn]) : EnrollsSome srv srv'' := by
  obtain ⟨kind', stopped, enrolls, inside⟩ := enrolls
  refine ⟨s, kind', stopped, enrolls.after still fun turn => ?_, fun k new => ?_⟩
  · obtain rfl := List.mem_singleton.mp (inside .gameTurn turn)
    simp at known
  · obtain rfl := List.mem_singleton.mp (inside k new)
    exact known

section Messages
variable (srv : Server) (c : ClientId)

theorem processGameSessionReqMsg_enrolls (now : Int64) :
    Ends Within (srv.processGameSessionReqMsg c now) (EnrollsSome srv) := by
  have answers {srv₁ : Server} (still : srv.Still srv₁) (msg : Message) :
      Ends Within (srv₁.sendMsg c msg) (EnrollsSome srv) :=
    (srv₁.sendMsg_onlySends c msg).mono fun _ same => (still.trans (.of_mute same)).enrollsSome
  have begins {srv₁ : Server} (still : srv.Still srv₁) (s : SessionId) :
      Ends Within (srv₁.startPreparation s now) (EnrollsSome srv) :=
    (srv₁.startPreparation_enrolls s now).mono fun _ enrolls => enrolls.after still (by simp)
  unfold processGameSessionReqMsg
  cases session : srv.gameSessionOf c with
  | some s =>
      simp only [session]
      split
      · exact begins (Still.refl srv) s
      · exact answers (Still.refl srv) _
  | none =>
      have still := srv.connectPlayerToGame_still c
      rcases connected : srv.connectPlayerToGame c with ⟨joined, srv₁⟩
      rw [connected] at still
      dsimp only
      split
      · split
        · exact begins still _
        · exact answers still _
      · exact nofun
      · exact answers still _

theorem processGameFieldMsg_enrolls (id : Int64) (field : GameField) :
    Ends Within (srv.processGameFieldMsg c id field) (EnrollsSome srv) := by
  have answers {srv₁ : Server} (still : srv.Still srv₁) (msg : Message) :
      Ends Within (srv₁.sendMsg c msg) (EnrollsSome srv) :=
    (srv₁.sendMsg_onlySends c msg).mono fun _ same => (still.trans (.of_mute same)).enrollsSome
  unfold processGameFieldMsg
  split
  · exact answers (Still.refl srv) _
  · split
    · exact answers (Still.refl srv) _
    · split
      · rename_i session set
        refine answers ?_ _
        unfold Session.setField at set
        split at set
        · cases set
        · split at set
          · cases set
          · obtain rfl := Option.some.inj set
            exact srv.setSession_still _ _ (.inl rfl) fun begun => begun
      · exact answers (Still.refl srv) _

theorem setLastShot_still {s : SessionId} {point : Point} {session : Session}
    (set : (srv.sessions s).setLastShot point c = some session) :
    srv.Still (srv.setSession s session) := by
  unfold Session.setLastShot at set
  split at set
  · obtain rfl := Option.some.inj set
    exact srv.setSession_still s _ (.inl rfl) fun begun => begun
  · cases set

theorem processGameMoveMsg_enrolls (point : Point) :
    Ends Within (srv.processGameMoveMsg c point) (EnrollsSome srv) := by
  unfold processGameMoveMsg
  split
  · exact (srv.sendMsg_onlySends c _).mono fun _ same => (Still.of_mute same).enrollsSome
  · split
    · split
      · rename_i session set
        refine (endTurn_enrolls _ _).mono fun _ enrolls => ?_
        exact enrolls.after (srv.setLastShot_still c set) (by simp)
      · exact (Still.refl srv).enrollsSome
    · exact (Still.refl srv).enrollsSome

theorem processMsg_enrolls (msg : Message) (now : Int64) :
    Ends Within (srv.processMsg c msg now) (EnrollsSome srv) := by
  have acknowledged {x : Except Fault Server} (handled : Ends Within x (EnrollsSome srv)) :
      Ends Within (x >>= fun srv₁ => if msg.type ≠ .receipt then
        srv₁.sendMsg c (Message.new (.receipt msg.id)) else .ok srv₁) (EnrollsSome srv) := by
    refine Ends.bind handled fun srv₁ enrolls => ?_
    split_ifs
    · exact (srv₁.sendMsg_onlySends c _).mono fun _ same => enrolls.muted same
    · exact enrolls
  unfold processMsg
  dsimp only
  split
  · exact acknowledged (srv.processGameSessionReqMsg_enrolls c now)
  · exact acknowledged (srv.processGameFieldMsg_enrolls c _ _)
  · exact acknowledged (srv.processGameMoveMsg_enrolls c _)
  · exact acknowledged (x := .ok srv) (Still.refl srv).enrollsSome

end Messages

theorem step_enrolls {srv srv' : Server} {e : Event} (other : e.isTimer = false)
    (done : srv.step e = .ok srv') : EnrollsSome srv srv' := by
  cases e with
  | accept =>
      obtain rfl : srv.acceptNewConnection = srv' := Except.ok.inj done
      refine Still.enrollsSome ?_
      unfold acceptNewConnection
      split_ifs <;> exact ⟨rfl, rfl, fun _ _ same => same, fun _ same => same⟩
  | message c msg now =>
      simp only [step] at done
      split_ifs at done
      exact (srv.processMsg_enrolls c msg now).elim done
  | broken c =>
      simp only [step] at done
      split_ifs at done
      exact ((srv.connBroken_still c).elim done).enrollsSome
  | timer id sec usec now draws => cases other

end Server
end Battleship
