import Battleship.Telling
import Battleship.Muted

/-! The script of a session: everything that can happen to it, with what both players are
sent then. Every event of the server follows the script in each of its sessions. -/
namespace Battleship

open Runs

structure Session.Alike (session session' : Session) : Prop where
  players : session'.players = session.players
  fields : session'.fields = session.fields
  state : session'.state = session.state
  turn : session'.curTurnPlayerIdx = session.curTurnPlayerIdx

theorem Session.Alike.refl (session : Session) : session.Alike session := ⟨rfl, rfl, rfl, rfl⟩

open Server in
inductive Script : Session → Session → (PlayerIdx → List Body) → Prop where
  | quiet {session session' : Session} (alike : session.Alike session') :
      Script session session' fun _ => []
  | submit {session : Session} {i : PlayerIdx} {field : GameField}
      (phase : session.state = .preparation ∨ session.state = .waitStart)
      (valid : field.isValidStartField = true) :
      Script session { session with fields := Function.update session.fields i field } fun _ => []
  /-- Someone came or left, and at most one player is there. -/
  | waits {session session' : Session}
      (state : session'.state = .waitPlayer ∨ session'.state = .noVacantGame) :
      Script session session' fun _ => []
  | prepare {session session' : Session} (endTime : Int64)
      (state : session'.state = .preparation) :
      Script session session' fun _ => [.startFieldReq endTime]
  | stopPreparation {session : Session} (state : session.state = .preparation) :
      Script session { session with state := .waitStart } fun _ => [.stopPreparation]
  | startFields {session : Session} (state : session.state = .waitStart)
      (valid : ∀ i, (session.fields i).isValidStartField = true) :
      Script session session (startFieldsFor session)
  | startGame {session : Session} (endTime : Int64) (first : PlayerIdx) (timeout : Option HandlerId)
      (state : session.state = .waitStart) :
      Script session { session with
          state := .gameTurn, curTurnPlayerIdx := first, turnTimeout := timeout }
        fun i => [.startTurn endTime (decide (i = first))]
  | endTurn {session : Session} (shot : Point) (timeout : Option HandlerId)
      (state : session.state = .gameTurn) :
      Script session { session with
          state := .processTurn, lastShot := shot, turnTimeout := timeout }
        fun i => [.stopTurn (decide (i = session.curTurnPlayerIdx))]
  | gameOver {session shot : Session} {draws : List Nat} {shotRes : CellState}
      (state : session.state = .processTurn)
      (registered : session.registerShot draws = some (shotRes, shot)) :
      Script session shot fun i => [shotFieldFor shot i]
  | changeTurn {session shot : Session} {draws : List Nat} {shotRes : CellState} (endTime : Int64)
      (timeout : Option HandlerId) (state : session.state = .processTurn)
      (registered : session.registerShot draws = some (shotRes, shot)) :
      Script session { shot.nextTurn shotRes with state := .gameTurn, turnTimeout := timeout }
        fun i => [shotFieldFor shot i,
          .startTurn endTime (decide (i = (shot.nextTurn shotRes).curTurnPlayerIdx))]

namespace Server

/-- From `srv` to `srv'` all sessions have followed the script. A client who is in no session
keeps his queue or loses it. -/
structure Scripted (srv srv' : Server) : Prop where
  sessions : ∀ s, ∃ bodies, Script (srv.sessions s) (srv'.sessions s) bodies ∧
    ∀ i c, (srv'.sessions s).players i = some c → srv'.sent c = srv.sent c ++ bodies i
  absent : ∀ c, (∀ s i, (srv'.sessions s).players i ≠ some c) →
    srv'.sent c = [] ∨ srv'.sent c = srv.sent c

section Steps

variable {srv base srv' : Server} {s : SessionId} {session : Session}
  {bodies : PlayerIdx → List Body}

theorem loud_shotFieldFor (shot : Session) (i : PlayerIdx) (bodies : List Body) :
    Board.loud (shotFieldFor shot i :: bodies) = shotFieldFor shot i :: Board.loud bodies := by
  unfold shotFieldFor
  split_ifs <;> rfl

/-- What was told since `base` is what was told since `srv` if only the session differs. -/
theorem Tells.scripted (tells : Tells base s session bodies srv') (sound : base.Sound)
    (queues : base.sent = srv.sent)
    (others : ∀ t, t ≠ s → base.sessions t = srv.sessions t)
    (script : Script (srv.sessions s) session fun i => Board.loud (bodies i)) :
    Scripted srv srv' := by
  constructor
  · intro t
    by_cases here : t = s
    · subst here
      rw [tells.here]
      refine ⟨_, script, fun i c seated => ?_⟩
      rw [tells.told i c seated, queues]
    · rw [tells.other here, others t here]
      refine ⟨_, .quiet (.refl _), fun i c seated => ?_⟩
      have elsewhere (j : PlayerIdx) : (base.sessions s).players j ≠ some c := by
        intro seated'
        rw [← others t here] at seated
        exact here (sound.one_seat seated seated').1
      rw [tells.others c elsewhere, queues, List.append_nil]
  · intro c absent
    by_cases seated : ∃ i, (base.sessions s).players i = some c
    · obtain ⟨i, seated⟩ := seated
      left
      refine tells.left i c seated ?_
      refine Option.eq_none_iff_forall_ne_some.mpr fun d there => ?_
      obtain rfl : d = c := Option.some.inj ((tells.stays i d there).symm.trans seated)
      exact absent s i (by rwa [tells.here])
    · right
      rw [tells.others c fun i there => seated ⟨i, there⟩, queues]

theorem Scripted.frame (scripted : Scripted srv srv') {srv'' : Server}
    (sessions : srv''.sessions = srv'.sessions) (sent : srv''.sent = srv'.sent) :
    Scripted srv srv'' := by
  obtain ⟨steps, absent⟩ := scripted
  refine ⟨?_, ?_⟩
  · rwa [sessions, sent]
  · rwa [sessions, sent]

theorem Scripted.refl (srv : Server) : Scripted srv srv := by
  constructor
  · exact fun s => ⟨_, .quiet (.refl _), fun _ _ _ => (List.append_nil _).symm⟩
  · exact fun _ _ => .inr rfl

theorem Scripted.sendMsg (scripted : Scripted srv srv') (c : ClientId) {msg : Message}
    (quiet : Board.silent msg.body = true) :
    Ends (fun _ => True) (srv'.sendMsg c msg) (Scripted srv) := by
  by_cases alive : srv'.clients c = none
  · simp only [Server.sendMsg, alive]
    trivial
  · rw [sendMsg_alive alive]
    exact scripted.frame rfl (sent_push_silent _ _ quiet)

theorem Tells.script (tells : Tells srv s session bodies srv') (sound : srv.Sound)
    (script : Script (srv.sessions s) session fun i => Board.loud (bodies i)) :
    Scripted srv srv' :=
  tells.scripted sound rfl (fun _ _ => rfl) script

theorem timeoutEvent_scripted {srv₀ : Server} (inv : srv.Inv) (sound : srv₀.Sound)
    (sessions : srv₀.sessions = srv.sessions) (queues : srv₀.toSendMsg = srv.toSendMsg)
    (kind : TimeoutKind) (s : SessionId) (now : Int64) (draws : List Nat) :
    Ends (fun _ => True) (srv₀.timeoutEvent kind s now draws) (Scripted srv) := by
  have tells := (Tells.start (inv.sound.apart s)).frame sessions queues
  have late : Scripted srv srv₀ := tells.script inv.sound (.quiet (.refl _))
  have here := tells.here
  cases kind with
  | preparation =>
      by_cases state : (srv.sessions s).state = .preparation
      · exact (tells.stopPreparation state).mono fun srv' tells' =>
          tells'.script inv.sound (.stopPreparation state)
      · exact Ends.of_eq (if_pos (by rwa [here])) late
  | checkStartFields =>
      have parts : Parts srv s (srv.sessions s) (fun _ => []) srv₀ := ⟨sound, tells⟩
      refine (parts.checkStartFields (inv.good s).agrees).mono fun srv' outcome => ?_
      obtain ⟨session', told, checked, tells'⟩ := outcome
      refine tells'.script inv.sound ?_
      cases checked with
      | accepted state valid => exact .startFields state valid
      | late state => exact .quiet (.refl _)
      | evicted state => exact .waits state
  | gameStart =>
      by_cases state : (srv.sessions s).state = .waitStart
      · refine (tells.startGame state now draws).mono fun srv' outcome => ?_
        obtain ⟨first, h, tells'⟩ := outcome
        exact tells'.script inv.sound (.startGame _ first (some h) state)
      · exact Ends.of_eq (if_pos (by rwa [here])) late
  | gameTurn =>
      by_cases state : (srv.sessions s).state = .gameTurn
      · refine (tells.endTurn state).mono fun srv' outcome => ?_
        obtain ⟨timeout, tells'⟩ := outcome
        exact tells'.script inv.sound (.endTurn (srv.sessions s).lastShot timeout state)
      · exact Ends.of_eq (if_pos (by rwa [here])) late
  | changeTurn =>
      by_cases state : (srv.sessions s).state = .processTurn
      · refine (tells.changeTurnPlayer state now draws).mono fun srv' outcome => ?_
        obtain ⟨shotRes, shot, registered, over_ | ⟨h, next⟩⟩ := outcome
        · refine over_.script inv.sound ?_
          simp only [List.nil_append, loud_shotFieldFor]
          exact .gameOver state registered
        · refine next.script inv.sound ?_
          simp only [List.nil_append, loud_shotFieldFor]
          exact .changeTurn _ (some h) state registered
      · exact Ends.of_eq (if_pos (by rwa [here])) late
  | endGame =>
      have parts : Parts srv s (srv.sessions s) (fun _ => []) srv₀ := ⟨sound, tells⟩
      refine parts.endGame.mono fun srv' parts' => parts'.2.script inv.sound ?_
      exact .waits (.inr (vacated_closed (inv.good s).agrees))

theorem processTimeout_scripted (inv : srv.Inv) (handler : Handler) (sec usec : Int)
    (now : Int64) (draws : List Nat) :
    Ends (fun _ => True) (srv.processTimeout handler sec usec now draws) (Scripted srv) := by
  unfold processTimeout
  dsimp only
  split
  · refine (timeoutEvent_scripted inv (inv.sound.setTimer _ _) rfl rfl _ _ now draws).bind ?_
    exact fun srv' scripted => scripted.frame rfl rfl
  · exact (Scripted.refl srv).frame rfl rfl

theorem seated_of_session (sound : srv.Sound) {c : ClientId} {s : SessionId}
    (session : srv.gameSessionOf c = some s) : ∃ i, (srv.sessions s).players i = some c :=
  sound.seats.member s c (gameSessionOf_eq.mp session)

theorem processGameSessionReqMsg_scripted (inv : srv.Inv) {c : ClientId}
    (alive : srv.clients c ≠ none) (now : Int64) :
    Ends (fun _ => True) (srv.processGameSessionReqMsg c now) (Scripted srv) := by
  unfold processGameSessionReqMsg
  cases session : srv.gameSessionOf c with
  | some s =>
      have ready : (srv.sessions s).state ≠ .waitPreparation := (inv.good s).ready
      simp only [session, if_neg ready]
      exact (Scripted.refl srv).sendMsg c rfl
  | none =>
      rcases connect_alone inv.sound (gameSessionOf_alone alive session) with
        ⟨_, full⟩ | ⟨s, srv₁, vacant, done, shows_⟩
      · rw [full]
        exact (Scripted.refl srv).sendMsg c rfl
      · rw [done]
        have here : (srv₁.sessions s).players (srv.sessions s).freeIdx = some c := by
          simp [shows_.session, Session.taken]
        have member := gameSessionOf_eq.mpr (shows_.sound.seats.seat s _ c here)
        have queues : srv₁.sent = srv.sent := by
          have muted := congrArg (fun result => result.2.toSendMsg)
            (connectPlayerToGame_muted c srv srv.toSendMsg)
          have kept : srv₁.toSendMsg = srv.toSendMsg := by rwa [done] at muted
          unfold sent
          rw [kept]
        have others (t : SessionId) (other : t ≠ s) : srv₁.sessions t = srv.sessions t :=
          congrArg Room.session (shows_.others t other)
        have tells := Tells.start (shows_.sound.apart s)
        simp only [member]
        split_ifs with state
        · refine (tells.startPreparation state now).mono fun srv' tells' => ?_
          exact tells'.scripted shows_.sound queues others (.prepare _ rfl)
        · refine (tells.sendMsg_silent c rfl).mono fun srv' tells' => ?_
          refine tells'.scripted shows_.sound queues others (.waits (.inl ?_))
          rw [shows_.session] at state ⊢
          simp only [Room.withSession_session, Session.taken] at state ⊢
          split_ifs at state ⊢ with closed
          · rfl
          · exact absurd rfl state

theorem processGameFieldMsg_scripted (inv : srv.Inv) (c : ClientId) (id : Int64)
    (field : GameField) :
    Ends (fun _ => True) (srv.processGameFieldMsg c id field) (Scripted srv) := by
  have same := Scripted.refl srv
  unfold processGameFieldMsg
  split
  · exact same.sendMsg c rfl
  · rename_i s session
    split_ifs with invalid
    · exact same.sendMsg c rfl
    · split
      · rename_i session' stored
        obtain ⟨i, seated⟩ := seated_of_session inv.sound session
        have phase : (srv.sessions s).state = .preparation ∨ (srv.sessions s).state = .waitStart := by
          by_contra other
          rw [Session.setField, if_pos (by tauto)] at stored
          cases stored
        rw [setField_accepted (inv.sound.apart s) seated phase field] at stored
        obtain rfl := Option.some.inj stored
        have tells : Tells srv s { srv.sessions s with
            fields := Function.update (srv.sessions s).fields i field } _ _ :=
          (Tells.start (inv.sound.apart s)).setSession rfl
        refine Scripted.sendMsg (tells.script inv.sound ?_) c rfl
        exact .submit phase (by simpa using invalid)
      · exact same.sendMsg c rfl

theorem processGameMoveMsg_scripted (inv : srv.Inv) (c : ClientId) (point : Point) :
    Ends (fun _ => True) (srv.processGameMoveMsg c point) (Scripted srv) := by
  have same := Scripted.refl srv
  unfold processGameMoveMsg
  split
  · exact same.sendMsg c rfl
  · rename_i s session
    split_ifs with playing
    · split
      · rename_i session' stored
        have shot : session' = { srv.sessions s with lastShot := point } := by
          unfold Session.setLastShot at stored
          split_ifs at stored
          exact (Option.some.inj stored).symm
        subst shot
        have tells : Tells srv s { srv.sessions s with lastShot := point } _ _ :=
          (Tells.start (inv.sound.apart s)).setSession rfl
        by_cases turn : (srv.sessions s).state = .gameTurn
        · refine (tells.endTurn turn).mono fun srv' outcome => ?_
          obtain ⟨timeout, tells'⟩ := outcome
          exact tells'.script inv.sound (.endTurn point timeout turn)
        -- The turn is already over: `end_turn` returns at once.
        · refine Ends.of_eq (if_pos ?_) (tells.script inv.sound (.quiet ⟨rfl, rfl, rfl, rfl⟩))
          rw [tells.here]
          exact turn
      · exact same
    · exact same

theorem processMsg_scripted (inv : srv.Inv) {c : ClientId} (alive : srv.clients c ≠ none)
    (msg : Message) (now : Int64) :
    Ends (fun _ => True) (srv.processMsg c msg now) (Scripted srv) := by
  have rest {x : Except Fault Server} (handled : Ends (fun _ => True) x (Scripted srv)) :
      Ends (fun _ => True) (do
        let srv' ← x
        if msg.type ≠ .receipt then srv'.sendMsg c (Message.new (.receipt msg.id)) else .ok srv')
        (Scripted srv) := by
    refine handled.bind fun srv' scripted => ?_
    split_ifs
    · exact scripted.sendMsg c rfl
    · exact scripted
  unfold processMsg
  cases msg.body with
  | gameSessionReq => exact rest (processGameSessionReqMsg_scripted inv alive now)
  | gameField field own => exact rest (processGameFieldMsg_scripted inv c msg.id field)
  | gameMove x y => exact rest (processGameMoveMsg_scripted inv c _)
  | _ => exact rest (x := .ok srv) (Scripted.refl srv)

theorem connBroken_scripted (inv : srv.Inv) {c : ClientId} (alive : srv.clients c ≠ none) :
    Ends (fun _ => True) (srv.connBroken c) (Scripted srv) := by
  cases session : srv.gameSessionOf c with
  | some s =>
      obtain ⟨i, seated⟩ := seated_of_session inv.sound session
      have left := (Tells.start (inv.sound.apart s)).leave seated
      refine Ends.of_eq (connBroken_member inv.sound seated) (left.script inv.sound ?_)
      refine .waits ?_
      by_cases waits : (srv.sessions s).state = .waitPlayer
      · exact .inr (by simp [Session.freeSlot, waits])
      · exact .inl (by simp [Session.freeSlot, waits])
  | none =>
      have alone := gameSessionOf_alone alive session
      have lost : (srv.gone c).sent c = [] := by
        simp only [sent, gone, Function.update_self]
        rfl
      have kept {d : ClientId} (other : d ≠ c) : (srv.gone c).sent d = srv.sent d := by
        simp only [sent, gone, Function.update_of_ne other]
      refine Ends.of_eq (connBroken_alone alone) ⟨?_, ?_⟩
      · refine fun s => ⟨_, .quiet (.refl _), fun i d seated => ?_⟩
        have other : d ≠ c := by
          rintro rfl
          exact inv.sound.absent alone s i seated
        rw [kept other, List.append_nil]
      · intro d _
        by_cases same : d = c
        · exact .inl (same ▸ lost)
        · exact .inr (kept same)

theorem step_scripted (inv : srv.Inv) (e : Event) :
    Ends (fun _ => True) (srv.step e) (Scripted srv) := by
  cases e with
  | accept =>
      have frame : srv.acceptNewConnection.sessions = srv.sessions ∧
          srv.acceptNewConnection.sent = srv.sent := by
        unfold acceptNewConnection
        split_ifs <;> exact ⟨rfl, rfl⟩
      exact (Scripted.refl srv).frame frame.1 frame.2
  | message c msg now =>
      simp only [step]
      split_ifs with alive
      · exact processMsg_scripted inv (Option.isSome_iff_ne_none.mp alive) msg now
      · trivial
  | broken c =>
      simp only [step]
      split_ifs with alive
      · exact connBroken_scripted inv (Option.isSome_iff_ne_none.mp alive)
      · trivial
  | timer id sec usec now draws =>
      simp only [step]
      split
      · trivial
      · exact processTimeout_scripted inv _ sec usec now draws

end Steps

end Server
end Battleship
