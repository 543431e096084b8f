import Battleship.Board
import Battleship.ServerSteps

/-! What the operations of a session queue for its two players. Nothing is assumed of the
server: where an operation ends at all, it has told the players this. -/
namespace Battleship

open Runs

namespace Server

/-- The messages queued for a client that change a board. -/
def sent (srv : Server) (c : ClientId) : List Body :=
  Board.loud ((srv.toSendMsg c).map Message.body)

theorem sent_push (srv : Server) (c : ClientId) (msg : Message) (d : ClientId) :
    (srv.push c msg).sent d = if d = c then srv.sent d ++ Board.loud [msg.body] else srv.sent d := by
  unfold sent push
  split_ifs with same
  · subst same
    simp only [Function.update_self, List.map_append, Board.loud_append, List.map_cons, List.map_nil]
  · simp only [Function.update_of_ne same]

theorem sent_push_silent (srv : Server) (c : ClientId) {msg : Message}
    (quiet : Board.silent msg.body = true) : (srv.push c msg).sent = srv.sent := by
  funext d
  have nothing : Board.loud [msg.body] = [] := by simp [Board.loud, quiet]
  rw [sent_push, nothing, List.append_nil, ite_self]

def only (i : PlayerIdx) (bodies : List Body) (j : PlayerIdx) : List Body :=
  if j = i then bodies else []

theorem only_both (i : PlayerIdx) (body body' : Body) (j : PlayerIdx) :
    only i [body] j ++ only (getEnemyIdx i) [body'] j = [if j = i then body else body'] := by
  fin_cases i <;> fin_cases j <;> rfl

/-- Since `base` the session `s` has become `session`, its players were sent `bodies`, and
those who have left have lost their queues. -/
structure Tells (base : Server) (s : SessionId) (session : Session)
    (bodies : PlayerIdx → List Body) (srv : Server) : Prop where
  apart : (base.sessions s).Apart
  sessions : srv.sessions = Function.update base.sessions s session
  stays : ∀ i c, session.players i = some c → (base.sessions s).players i = some c
  told : ∀ i c, session.players i = some c → srv.sent c = base.sent c ++ Board.loud (bodies i)
  left : ∀ i c, (base.sessions s).players i = some c → session.players i = none → srv.sent c = []
  others : ∀ c, (∀ i, (base.sessions s).players i ≠ some c) → srv.sent c = base.sent c

abbrev Telling (base : Server) (s : SessionId) (session : Session)
    (bodies : PlayerIdx → List Body) (x : Except Fault Server) : Prop :=
  Ends (fun _ => True) x (Tells base s session bodies)

section Operations

variable {base srv : Server} {s : SessionId} {session : Session} {bodies : PlayerIdx → List Body}

theorem Tells.start (apart : (srv.sessions s).Apart) :
    Tells srv s (srv.sessions s) (fun _ => []) srv := by
  constructor
  · exact apart
  · exact (Function.update_eq_self _ _).symm
  · exact fun _ _ seated => seated
  · exact fun _ _ _ => (List.append_nil _).symm
  · intro i c seated free
    cases seated.symm.trans free
  · exact fun _ _ => rfl

theorem Tells.here (tells : Tells base s session bodies srv) : srv.sessions s = session := by
  rw [tells.sessions, Function.update_self]

theorem Tells.other (tells : Tells base s session bodies srv) {t : SessionId} (other : t ≠ s) :
    srv.sessions t = base.sessions t := by
  rw [tells.sessions, Function.update_of_ne other]

theorem Tells.slot (tells : Tells base s session bodies srv) {i j : PlayerIdx} {c : ClientId}
    (seated : session.players i = some c) (seated' : session.players j = some c) : i = j := by
  have here := tells.stays i c seated
  have there := tells.stays j c seated'
  have apart := tells.apart c
  fin_cases i <;> fin_cases j <;> simp_all

theorem Tells.congr (tells : Tells base s session bodies srv) {bodies' : PlayerIdx → List Body}
    (same : ∀ i, session.players i ≠ none → bodies i = bodies' i) :
    Tells base s session bodies' srv := by
  obtain ⟨apart, sessions, stays, told, left, others⟩ := tells
  refine ⟨apart, sessions, stays, fun i c seated => ?_, left, others⟩
  rw [← same i (by simp [seated])]
  exact told i c seated

theorem Telling.congr {x : Except Fault Server} (telling : Telling base s session bodies x)
    {bodies' : PlayerIdx → List Body} (same : ∀ i, session.players i ≠ none → bodies i = bodies' i) :
    Telling base s session bodies' x :=
  telling.mono fun _ tells => tells.congr same

theorem Tells.frame (tells : Tells base s session bodies srv) {srv' : Server}
    (sessions : srv'.sessions = srv.sessions) (queues : srv'.toSendMsg = srv.toSendMsg) :
    Tells base s session bodies srv' := by
  obtain ⟨apart, sessions₁, stays, told, left, others⟩ := tells
  have sent : srv'.sent = srv.sent := by
    funext c
    rw [Server.sent, queues, Server.sent]
  exact ⟨apart, sessions.trans sessions₁, stays, by rwa [sent], by rwa [sent], by rwa [sent]⟩

theorem Tells.setSession (tells : Tells base s session bodies srv) {session' : Session}
    (players : session'.players = session.players) :
    Tells base s session' bodies (srv.setSession s session') := by
  obtain ⟨apart, sessions, stays, told, left, others⟩ := tells
  refine ⟨apart, ?_, by rwa [players], by rwa [players], by rwa [players], others⟩
  unfold Server.setSession
  dsimp only
  rw [sessions, Function.update_idem]

theorem Tells.setGameState (tells : Tells base s session bodies srv) (state : GameState) :
    Tells base s { session with state := state } bodies (srv.setGameState s state) := by
  unfold Server.setGameState
  rw [tells.here]
  exact tells.setSession rfl

theorem Tells.push (tells : Tells base s session bodies srv) {i : PlayerIdx} {c : ClientId}
    (seated : session.players i = some c) (msg : Message) :
    Tells base s session (fun j => bodies j ++ only i [msg.body] j) (srv.push c msg) := by
  have slot {j : PlayerIdx} := fun seated' => tells.slot (i := i) (j := j) seated seated'
  obtain ⟨apart, sessions, stays, told, left, others⟩ := tells
  refine ⟨apart, sessions, stays, ?_, ?_, ?_⟩
  · intro j d seated'
    rw [sent_push, Board.loud_append, told j d seated', ← List.append_assoc]
    by_cases same : d = c
    · subst same
      rw [slot seated', if_pos rfl, only, if_pos rfl]
    · have elsewhere : j ≠ i := by
        rintro rfl
        exact same (Option.some.inj (seated'.symm.trans seated))
      rw [if_neg same, only, if_neg elsewhere]
      exact (List.append_nil _).symm
  · intro j d before free
    have other : d ≠ c := by
      rintro rfl
      have here := stays i d seated
      have apart := apart d
      fin_cases i <;> fin_cases j <;> simp_all
    rw [sent_push, if_neg other]
    exact left j d before free
  · intro d absent
    have other : d ≠ c := by
      rintro rfl
      exact absent i (stays i d seated)
    rw [sent_push, if_neg other]
    exact others d absent

theorem Tells.push_silent (tells : Tells base s session bodies srv) (c : ClientId) {msg : Message}
    (quiet : Board.silent msg.body = true) : Tells base s session bodies (srv.push c msg) := by
  obtain ⟨apart, sessions, stays, told, left, others⟩ := tells
  have sent := sent_push_silent srv c quiet
  exact ⟨apart, sessions, stays, by rwa [sent], by rwa [sent], by rwa [sent]⟩

theorem Tells.sendMsg (tells : Tells base s session bodies srv) {i : PlayerIdx} {c : ClientId}
    (seated : session.players i = some c) (msg : Message) :
    Telling base s session (fun j => bodies j ++ only i [msg.body] j) (srv.sendMsg c msg) := by
  by_cases alive : srv.clients c = none
  · simp only [Server.sendMsg, alive]
    trivial
  · rw [sendMsg_alive alive]
    exact tells.push seated msg

theorem Tells.sendMsg_silent (tells : Tells base s session bodies srv) (c : ClientId) {msg : Message}
    (quiet : Board.silent msg.body = true) : Telling base s session bodies (srv.sendMsg c msg) := by
  by_cases alive : srv.clients c = none
  · simp only [Server.sendMsg, alive]
    trivial
  · rw [sendMsg_alive alive]
    exact tells.push_silent c quiet

theorem Tells.sendToPlayer (tells : Tells base s session bodies srv) (i : PlayerIdx) (body : Body) :
    Telling base s session (fun j => bodies j ++ only i [body] j) (srv.sendToPlayer s i body) := by
  unfold Server.sendToPlayer
  rw [tells.here]
  split
  · trivial
  · rename_i c seated
    have sent := tells.sendMsg seated (Message.new body)
    rwa [Message.new_body] at sent

theorem Tells.sendCopy (tells : Tells base s session bodies srv) (i : PlayerIdx) (msg : Message) :
    Telling base s session (fun j => bodies j ++ only i [msg.body] j) (srv.sendCopy s i msg) := by
  unfold Server.sendCopy
  rw [tells.here]
  split
  · rename_i free
    refine tells.congr fun j seated => ?_
    have other : j ≠ i := by
      rintro rfl
      exact seated free
    rw [only, if_neg other, List.append_nil]
  · rename_i c seated
    simp only [createInstance_getData]
    exact tells.sendMsg seated msg

theorem Tells.sendForAll (tells : Tells base s session bodies srv) (msg : Message) :
    Telling base s session (fun j => bodies j ++ [msg.body]) (srv.sendForAll s msg) := by
  refine (tells.sendCopy 0 msg).bind fun srv₁ tells₁ => ?_
  refine (tells₁.sendCopy 1 msg).congr fun j _ => ?_
  fin_cases j <;> simp [only]

theorem Tells.sendGameState (tells : Tells base s session bodies srv) (i : PlayerIdx) :
    Telling base s session bodies (srv.sendGameState s i) := by
  unfold Server.sendGameState
  split
  · exact tells
  · exact tells.sendMsg_silent _ rfl

theorem Tells.sendGameStateForAll (tells : Tells base s session bodies srv) :
    Telling base s session bodies (srv.sendGameStateForAll s) :=
  (tells.sendGameState 0).bind fun _ tells₁ => tells₁.sendGameState 1

theorem Tells.startPreparation (tells : Tells base s session bodies srv)
    (state : session.state = .waitPreparation) (now : Int64) :
    Telling base s { session with state := .preparation }
      (fun i => bodies i ++ [.startFieldReq (now + Int64.ofInt preparationDuration)])
      (srv.startPreparation s now) := by
  unfold Server.startPreparation
  rw [tells.here, if_neg (by simp [state])]
  refine ((tells.setGameState .preparation).sendForAll _).bind fun srv₁ tells₁ => ?_
  exact tells₁.frame rfl rfl

theorem Tells.stopPreparation (tells : Tells base s session bodies srv)
    (state : session.state = .preparation) :
    Telling base s { session with state := .waitStart } (fun i => bodies i ++ [.stopPreparation])
      (srv.stopPreparation s) := by
  unfold Server.stopPreparation
  rw [tells.here, if_neg (by simp [state])]
  refine (tells.sendForAll _).bind fun srv₁ tells₁ => ?_
  have waits := tells₁.setGameState .waitStart
  exact Tells.sendGameStateForAll (waits.frame rfl rfl)

/-- Both fields as the player of slot `i` may see them. -/
def startFieldsFor (session : Session) (i : PlayerIdx) : List Body :=
  [.gameField (session.fields i) true,
    .gameField (session.fields (getEnemyIdx i)).getForEnemy false]

theorem Tells.sendStartFieldsTo (tells : Tells base s session bodies srv) (i : PlayerIdx) :
    Telling base s session (fun j => bodies j ++ only i (startFieldsFor session i) j)
      (srv.sendStartFieldsTo s i) := by
  unfold Server.sendStartFieldsTo
  rw [tells.here]
  refine (tells.sendToPlayer i _).bind fun srv₁ tells₁ => ?_
  refine (tells₁.sendToPlayer i _).congr fun j _ => ?_
  by_cases same : j = i <;> simp [only, same, startFieldsFor]

theorem Tells.sendStartFields (tells : Tells base s session bodies srv)
    (state : session.state = .waitStart) :
    Telling base s session (fun i => bodies i ++ startFieldsFor session i)
      (srv.sendStartFields s) := by
  unfold Server.sendStartFields
  rw [tells.here, if_neg (by simp [state])]
  refine (tells.sendStartFieldsTo 0).bind fun srv₁ tells₁ => ?_
  refine (tells₁.sendStartFieldsTo 1).congr fun j _ => ?_
  fin_cases j <;> simp [only]

theorem Tells.startNewTurn (tells : Tells base s session bodies srv)
    (state : session.state = .waitStart ∨ session.state = .processTurn) (now : Int64) :
    Ends (fun _ => True) (srv.startNewTurn s now) fun srv' => ∃ h,
      Tells base s { session with state := .gameTurn, turnTimeout := some h }
        (fun i => bodies i ++ [.startTurn (now + Int64.ofInt turnDuration)
          (decide (i = session.curTurnPlayerIdx))]) srv' := by
  unfold Server.startNewTurn
  rw [tells.here, if_neg (by rcases state with wait | process <;> simp [*])]
  refine ((tells.setGameState .gameTurn).sendToPlayer _ _).bind fun srv₁ tells₁ => ?_
  refine (tells₁.sendToPlayer _ _).bind fun srv₂ tells₂ => ⟨srv₂.nextHandler, ?_⟩
  have turn : ((srv.setGameState s .gameTurn).sessions s).curTurnPlayerIdx =
      session.curTurnPlayerIdx := by rw [(tells.setGameState .gameTurn).here]
  have enemy : (srv₁.sessions s).enemyIdx = getEnemyIdx session.curTurnPlayerIdx := by
    rw [tells₁.here]
    rfl
  rw [turn, enemy] at tells₂
  have armed : Tells base s { session with state := .gameTurn } _
      (srv₂.addTimeoutHandler .gameTurn s turnDuration) := tells₂.frame rfl rfl
  have last : Tells base s { session with
      state := .gameTurn, turnTimeout := some srv₂.nextHandler } _ _ := armed.setSession rfl
  have here := armed.here
  simp only [here]
  refine last.congr fun j _ => ?_
  rw [List.append_assoc, only_both]
  by_cases own : j = session.curTurnPlayerIdx <;> simp [own]

theorem Tells.startGame (tells : Tells base s session bodies srv)
    (state : session.state = .waitStart) (now : Int64) (draws : List Nat) :
    Ends (fun _ => True) (srv.startGame s now draws) fun srv' => ∃ first h,
      Tells base s { session with
          state := .gameTurn, curTurnPlayerIdx := first, turnTimeout := some h }
        (fun i => bodies i ++ [.startTurn (now + Int64.ofInt turnDuration) (decide (i = first))])
        srv' := by
  unfold Server.startGame
  rw [tells.here, if_neg (by simp [state])]
  split
  · trivial
  · rename_i raw rest
    have chosen : Tells base s { session with
        curTurnPlayerIdx := if rand raw 2 = 0 then 0 else 1 } _ _ := tells.setSession rfl
    refine (chosen.startNewTurn (.inl state) now).mono fun srv' outcome => ?_
    obtain ⟨h, tells'⟩ := outcome
    exact ⟨_, h, tells'⟩

theorem Tells.stopTimeout (tells : Tells base s session bodies srv) (id : HandlerId) :
    Telling base s session bodies (srv.stopTimeout id) := by
  unfold Server.stopTimeout
  split
  · trivial
  · exact tells.frame rfl rfl

theorem Tells.endTurn (tells : Tells base s session bodies srv)
    (state : session.state = .gameTurn) :
    Ends (fun _ => True) (srv.endTurn s) fun srv' => ∃ timeout,
      Tells base s { session with state := .processTurn, turnTimeout := timeout }
        (fun i => bodies i ++ [.stopTurn (decide (i = session.curTurnPlayerIdx))]) srv' := by
  unfold Server.endTurn
  rw [tells.here, if_neg (by simp [state])]
  refine ((tells.setGameState .processTurn).sendToPlayer _ _).bind fun srv₁ tells₁ => ?_
  refine (tells₁.sendToPlayer _ _).bind fun srv₂ tells₂ => ?_
  have turn : ((srv.setGameState s .processTurn).sessions s).curTurnPlayerIdx =
      session.curTurnPlayerIdx := by rw [(tells.setGameState .processTurn).here]
  have enemy : (srv₁.sessions s).enemyIdx = getEnemyIdx session.curTurnPlayerIdx := by
    rw [tells₁.here]
    rfl
  rw [turn, enemy] at tells₂
  have told : Tells base s { session with state := .processTurn } (fun i => bodies i ++
      [.stopTurn (decide (i = session.curTurnPlayerIdx))]) srv₂ := by
    refine tells₂.congr fun j _ => ?_
    rw [List.append_assoc, only_both]
    by_cases own : j = session.curTurnPlayerIdx <;> simp [own]
  have armed : Tells base s { session with state := .processTurn } _
      (srv₂.addTimeoutHandler .changeTurn s waitDuration) := told.frame rfl rfl
  dsimp only
  split
  · exact ⟨_, armed⟩
  · refine (armed.stopTimeout _).bind fun srv₃ tells₃ => ⟨none, ?_⟩
    have here := tells₃.here
    simp only [here]
    exact tells₃.setSession rfl

def shotFieldFor (session : Session) (i : PlayerIdx) : Body :=
  if i = session.curTurnPlayerIdx then
    .gameField (session.fields session.enemyIdx).getForEnemy false
  else .gameField (session.fields session.enemyIdx) true

theorem Tells.sendFields (tells : Tells base s session bodies srv) :
    Telling base s session (fun i => bodies i ++ [shotFieldFor session i]) (srv.sendFields s) := by
  unfold Server.sendFields
  rw [tells.here]
  refine (tells.sendToPlayer _ _).bind fun srv₁ tells₁ => ?_
  rw [tells₁.here]
  refine (tells₁.sendToPlayer _ _).congr fun j _ => ?_
  rw [List.append_assoc, Session.enemyIdx, only_both]
  rfl

theorem Tells.sendGameResult (tells : Tells base s session bodies srv) :
    Telling base s session bodies (srv.sendGameResult s) := by
  have quiet {srv₁ : Server} (tells₁ : Tells base s session bodies srv₁) (i : PlayerIdx)
      (state : GameState) :
      Telling base s session bodies (srv₁.sendToPlayer s i (.gameState state.code)) := by
    unfold Server.sendToPlayer
    split
    · trivial
    · exact tells₁.sendMsg_silent _ rfl
  unfold Server.sendGameResult
  exact (quiet tells _ _).bind fun srv₁ tells₁ => quiet tells₁ _ _

def ShotTold (base : Server) (s : SessionId) (bodies : PlayerIdx → List Body) (now : Int64)
    (shotRes : CellState) (shot : Session) (srv : Server) : Prop :=
  Tells base s shot (fun i => bodies i ++ [shotFieldFor shot i]) srv ∨
    ∃ h, Tells base s { shot.nextTurn shotRes with state := .gameTurn, turnTimeout := some h }
      (fun i => bodies i ++ [shotFieldFor shot i, .startTurn (now + Int64.ofInt turnDuration)
        (decide (i = (shot.nextTurn shotRes).curTurnPlayerIdx))]) srv

theorem Tells.nextTurn {shot : Session} {shotRes : CellState}
    (tells : Tells base s (shot.nextTurn shotRes)
      (fun i => bodies i ++ [shotFieldFor shot i]) srv)
    (state : shot.state = .processTurn) (now : Int64) :
    Ends (fun _ => True) (srv.startNewTurn s now) (ShotTold base s bodies now shotRes shot) := by
  have phase : (shot.nextTurn shotRes).state = .processTurn := by
    unfold Session.nextTurn
    split_ifs <;> exact state
  refine (tells.startNewTurn (.inr phase) now).mono fun srv' outcome => ?_
  obtain ⟨h, tells'⟩ := outcome
  refine .inr ⟨h, tells'.congr fun i _ => ?_⟩
  rw [List.append_assoc]
  rfl

theorem Tells.changeTurnPlayer (tells : Tells base s session bodies srv)
    (state : session.state = .processTurn) (now : Int64) (draws : List Nat) :
    Ends (fun _ => True) (srv.changeTurnPlayer s now draws) fun srv' => ∃ shotRes shot,
      session.registerShot draws = some (shotRes, shot) ∧
        ShotTold base s bodies now shotRes shot srv' := by
  unfold Server.changeTurnPlayer
  rw [tells.here, if_neg (by simp [state])]
  cases registered : session.registerShot draws with
  | none => trivial
  | some result =>
      obtain ⟨shotRes, shot⟩ := result
      obtain ⟨fields, frame⟩ := Session.registerShot_frame registered
      have players : shot.players = session.players := by rw [frame]
      have processing : shot.state = .processTurn := by rw [frame]; exact state
      dsimp only
      refine ((tells.setSession players).sendFields).bind fun srv₁ tells₁ => ?_
      rw [tells₁.here]
      split_ifs with finished passes
      · refine tells₁.sendGameResult.bind fun srv₂ tells₂ => ?_
        exact ⟨shotRes, shot, rfl, .inl (tells₂.frame rfl rfl)⟩
      · have turned : shot.nextTurn shotRes = shot.changeCurTurnPlayerIdx := if_pos passes
        have tells₂ : Tells base s shot.changeCurTurnPlayerIdx _ _ := tells₁.setSession rfl
        rw [← turned] at tells₂
        rw [← turned]
        exact (tells₂.nextTurn processing now).mono fun srv' told => ⟨shotRes, shot, rfl, told⟩
      · have stays : shot.nextTurn shotRes = shot := if_neg passes
        rw [← stays] at tells₁
        refine (Tells.nextTurn ?_ processing now).mono fun srv' told => ⟨shotRes, shot, rfl, told⟩
        simpa only [stays] using tells₁

theorem freeSlot_stays {session : Session} {i j : PlayerIdx} {c : ClientId}
    (seated : (session.freeSlot i).players j = some c) : j ≠ i ∧ session.players j = some c := by
  by_cases same : j = i
  · subst same
    simp [Session.freeSlot] at seated
  · simp only [Session.freeSlot, Function.update_of_ne same] at seated
    exact ⟨same, seated⟩

theorem Tells.leave (tells : Tells base s session bodies srv) {i : PlayerIdx} {c : ClientId}
    (seated : session.players i = some c) :
    Tells base s (session.freeSlot i) bodies
      ((srv.setSession s ((srv.sessions s).freeSlot i)).gone c) := by
  have slot {j : PlayerIdx} := fun seated' => tells.slot (i := i) (j := j) seated seated'
  have lost : ((srv.setSession s (session.freeSlot i)).gone c).sent c = [] := by
    simp only [Server.sent, Server.gone, Function.update_self]
    rfl
  have kept {d : ClientId} (other : d ≠ c) :
      ((srv.setSession s (session.freeSlot i)).gone c).sent d = srv.sent d := by
    simp only [Server.sent, Server.gone, Server.setSession, Function.update_of_ne other]
  rw [tells.here]
  obtain ⟨apart, sessions, stays, told, left, others⟩ := tells
  refine ⟨apart, ?_, ?_, ?_, ?_, ?_⟩
  · simp only [Server.gone, Server.setSession, sessions, Function.update_idem]
  · exact fun j d seated' => stays j d (freeSlot_stays seated').2
  · intro j d seated'
    obtain ⟨elsewhere, there⟩ := freeSlot_stays seated'
    have other : d ≠ c := by
      rintro rfl
      exact elsewhere (slot there).symm
    rw [kept other]
    exact told j d there
  · intro j d before free
    by_cases same : d = c
    · rw [same]
      exact lost
    · rw [kept same]
      refine left j d before ?_
      by_cases here : j = i
      · subst here
        exact absurd (Option.some.inj (before.symm.trans (stays j c seated))) same
      · simpa only [Session.freeSlot, Function.update_of_ne here] using free
  · intro d absent
    have other : d ≠ c := by
      rintro rfl
      exact absent i (stays i d seated)
    rw [kept other]
    exact others d absent

def Parts (base : Server) (s : SessionId) (session : Session) (bodies : PlayerIdx → List Body)
    (srv : Server) : Prop :=
  srv.Sound ∧ Tells base s session bodies srv

theorem Parts.disconnectClient (parts : Parts base s session bodies srv) {i : PlayerIdx}
    {c : ClientId} (seated : session.players i = some c) :
    Ends (fun _ => True) (srv.disconnectClient c)
      (Parts base s (session.freeSlot i) bodies) := by
  obtain ⟨sound, tells⟩ := parts
  have here : (srv.sessions s).players i = some c := by rwa [tells.here]
  refine Ends.of_eq (disconnectClient_member sound here) ⟨?_, tells.leave seated⟩
  exact ((Shows.start sound (sound.seats.born here)).left here).sound

theorem Parts.checkStartField (parts : Parts base s session bodies srv) (i : PlayerIdx) :
    Ends (fun _ => True) (srv.checkStartField s i) (Parts base s (session.evict i) bodies) := by
  unfold Server.checkStartField Session.evict
  rw [parts.2.here]
  split
  · rename_i free
    rw [if_neg (by simp [free])]
    exact parts
  · rename_i c seated
    cases valid : (session.fields i).isValidStartField with
    | true =>
        rw [if_pos rfl, if_neg (by simp)]
        exact parts
    | false =>
        rw [if_neg (by simp), if_pos (by simp [seated])]
        exact parts.disconnectClient seated

def vacated (session : Session) (i : PlayerIdx) : Session :=
  if (session.players i).isSome then session.freeSlot i else session

theorem vacated_free (session : Session) (i : PlayerIdx) : (vacated session i).players i = none := by
  unfold vacated
  split_ifs with seated
  · simp [Session.freeSlot]
  · exact Option.not_isSome_iff_eq_none.mp seated

theorem vacated_stays {session : Session} {j : PlayerIdx} (free : session.players j = none)
    (i : PlayerIdx) : (vacated session i).players j = none := by
  unfold vacated
  split_ifs
  · by_cases same : j = i
    · simp [Session.freeSlot, same]
    · simpa only [Session.freeSlot, Function.update_of_ne same] using free
  · exact free

theorem vacated_agrees {session : Session} (agrees : session.Agrees) (i : PlayerIdx) :
    (vacated session i).Agrees := by
  unfold vacated
  split_ifs with seated
  · obtain ⟨c, seated⟩ := Option.isSome_iff_exists.mp seated
    exact agrees.freeSlot seated
  · exact agrees

theorem vacated_closed {session : Session} (agrees : session.Agrees) :
    (vacated (vacated session 0) 1).state = .noVacantGame := by
  apply (vacated_agrees (vacated_agrees agrees 0) 1).1.mp
  apply Session.count_zero_iff.mpr
  rw [Fin.forall_fin_two]
  constructor
  · exact vacated_stays (vacated_free session 0) 1
  · exact vacated_free _ 1

theorem Parts.endGameFor (parts : Parts base s session bodies srv) (i : PlayerIdx) :
    Ends (fun _ => True) (srv.endGameFor s i) (Parts base s (vacated session i) bodies) := by
  unfold Server.endGameFor vacated
  rw [parts.2.here]
  split
  · rename_i free
    rw [if_neg (by simp [free])]
    exact parts
  · rename_i c seated
    rw [if_pos (by simp [seated])]
    exact parts.disconnectClient seated

theorem Parts.endGame (parts : Parts base s session bodies srv) :
    Ends (fun _ => True) (srv.endGame s)
      (Parts base s (vacated (vacated session 0) 1) bodies) :=
  (parts.endGameFor 0).bind fun _ parts₁ => parts₁.endGameFor 1

/-- What `check_start_fields` leaves of a session and what it tells those who stay. -/
inductive Checked (session : Session) : Session → (PlayerIdx → List Body) → Prop where
  | accepted (state : session.state = .waitStart)
      (valid : ∀ i, (session.fields i).isValidStartField = true) :
      Checked session session (startFieldsFor session)
  | late (state : session.state ≠ .waitStart) : Checked session session fun _ => []
  | evicted {session' : Session}
      (state : session'.state = .waitPlayer ∨ session'.state = .noVacantGame) :
      Checked session session' fun _ => []

theorem Parts.checkStartFields (parts : Parts base s session bodies srv)
    (agrees : session.Agrees) :
    Ends (fun _ => True) (srv.checkStartFields s) fun srv' => ∃ session' told,
      Checked session session' told ∧ Tells base s session' (fun i => bodies i ++ told i) srv' := by
  refine (parts.checkStartField 0).bind fun srv₁ parts₁ => ?_
  refine (parts₁.checkStartField 1).bind fun srv₂ parts₂ => ?_
  have tells : Tells base s session.evictInvalid bodies srv₂ := parts₂.2
  have silent {session' : Session} {srv' : Server} (tells' : Tells base s session' bodies srv') :
      Tells base s session' (fun i => bodies i ++ []) srv' :=
    tells'.congr fun i _ => (List.append_nil _).symm
  rw [tells.here]
  split_ifs with two one
  -- Two players are left exactly if nobody was evicted.
  · obtain ⟨kept, valid⟩ := evictInvalid_full (Session.full_iff.mpr two)
    rw [kept] at tells
    by_cases state : session.state = .waitStart
    · refine (tells.sendStartFields state).bind fun srv₃ tells₃ => ?_
      exact ⟨session, _, .accepted state valid, tells₃.frame rfl rfl⟩
    · have late : srv₂.sendStartFields s = .ok srv₂ := by
        refine if_pos ?_
        rw [tells.here]
        exact state
      rw [late]
      exact ⟨session, _, .late state, silent (tells.frame rfl rfl)⟩
  · refine (tells.setGameState .waitPlayer).sendGameStateForAll.mono fun srv₃ tells₃ => ?_
    exact ⟨_, _, .evicted (.inl rfl), silent tells₃⟩
  · have bound := session.evictInvalid.count_le_two
    have none : session.evictInvalid.getPlayersCount = 0 := by omega
    have closed := (agrees.evict 0).evict 1
    exact ⟨_, _, .evicted (.inr (closed.1.mp none)), silent tells⟩

end Operations

end Server
end Battleship
