import Battleship.Informed
import Battleship.SessionShots

/-! Whose fields a game is started with. The slots of the fields are not cleared
when a player leaves, so a newcomer may start with the field of the one before
him; a valid field is his own exactly if he has sent one. -/
namespace Battleship

open Runs

namespace Server

/-- The client is in the session, and since he joined it he has sent the field and
`set_field` has stored it. -/
inductive Submitted (s : SessionId) (c : ClientId) (field : GameField) : List Event → Prop where
  | sent {es : List Event} {srv : Server} {session : Session} {msg : Message} {own : Bool}
      {now : Int64} (done : run init es = .ok srv) (member : srv.gameSessionOf c = some s)
      (body : msg.body = .gameField field own) (valid : field.isValidStartField = true)
      (stored : (srv.sessions s).setField c field = some session) :
      Submitted s c field (es ++ [.message c msg now])
  | stayed {es : List Event} {e : Event} {srv : Server} (before : Submitted s c field es)
      (done : run init (es ++ [e]) = .ok srv) (member : srv.gameSessionOf c = some s) :
      Submitted s c field (es ++ [e])

theorem Submitted.message_mem {s : SessionId} {c : ClientId} {field : GameField}
    {es : List Event} (submitted : Submitted s c field es) :
    ∃ msg now own, .message c msg now ∈ es ∧ msg.body = .gameField field own := by
  induction submitted with
  | sent done member body valid stored =>
      exact ⟨_, _, _, List.mem_append_right _ (List.mem_singleton_self _), body⟩
  | stayed before done member ih =>
      obtain ⟨msg, now, own, inside, body⟩ := ih
      exact ⟨msg, now, own, List.mem_append_left _ inside, body⟩

theorem Submitted.snoc_cases {s : SessionId} {c : ClientId} {field : GameField}
    {es : List Event} {e : Event} {srv : Server} (submitted : Submitted s c field (es ++ [e]))
    (done : run init es = .ok srv) :
    Submitted s c field es ∨ ∃ session msg own now, e = .message c msg now ∧
      srv.gameSessionOf c = some s ∧ msg.body = .gameField field own ∧
      field.isValidStartField = true ∧ (srv.sessions s).setField c field = some session := by
  generalize whole : es ++ [e] = all at submitted
  cases submitted with
  | sent done' member body valid stored =>
      obtain ⟨rfl, last⟩ := List.append_inj' whole rfl
      obtain rfl := List.singleton_inj.mp last
      obtain rfl := Except.ok.inj (done.symm.trans done')
      exact Or.inr ⟨_, _, _, _, rfl, member, body, valid, stored⟩
  | stayed before done' member =>
      obtain ⟨rfl, _⟩ := List.append_inj' whole rfl
      exact Or.inl before

end Server

namespace Room

theorem evict_fields (session : Session) (i : PlayerIdx) :
    (session.evict i).fields = session.fields := by
  unfold Session.evict
  split_ifs <;> rfl

theorem evict_seated {session : Session} {i j : PlayerIdx} {c : ClientId}
    (stays : (session.evict i).players j = some c) : session.players j = some c := by
  unfold Session.evict at stays
  split_ifs at stays
  · by_cases same : j = i
    · subst same
      simp [Session.freeSlot] at stays
    · simpa [Session.freeSlot, same] using stays
  · exact stays

theorem evictInvalid_seated {session : Session} {j : PlayerIdx} {c : ClientId}
    (stays : session.evictInvalid.players j = some c) : session.players j = some c :=
  evict_seated (evict_seated stays)

theorem evictInvalid_fields (session : Session) :
    session.evictInvalid.fields = session.fields := by
  simp [Session.evictInvalid, evict_fields]

/-- A field stays valid only if no shot has been registered in it. -/
theorem registerShot_valid {session session' : Session} {draws : List Nat} {shotRes : CellState}
    (shot : session.registerShot draws = some (shotRes, session')) {i : PlayerIdx}
    (valid : (session'.fields i).isValidStartField = true) :
    session'.fields i = session.fields i := by
  obtain ⟨point, field, untried, accepted, rfl, _⟩ := Session.registerShot_spec shot
  by_cases enemy : i = session.enemyIdx
  · have damaged := (GameField.shot_registerShot _ point untried).not_valid
    rw [accepted] at damaged
    simp [enemy, damaged] at valid
  · simp [enemy]

/-- What a step does to the valid field of a player: nothing, or he sends it, or
he has just taken the seat. -/
theorem Step.field {action : Action} {room room' : Room} (step : Step action room room')
    {i : PlayerIdx} {c : ClientId} (seated : room'.session.players i = some c)
    (valid : (room'.session.fields i).isValidStartField = true) :
    (room.session.players i = some c ∧ room'.session.fields i = room.session.fields i) ∨
      (room.session.players i = some c ∧ action = .submit i (room'.session.fields i) ∧
        (room.session.state = .preparation ∨ room.session.state = .waitStart)) ∨
      action = .join i c := by
  cases step with
  | idle | ask | move | lateMove | expire | stopPreparation | fieldsAccepted | startGame
  | endTurn => exact Or.inl ⟨seated, rfl⟩
  | @joinFirst _ d earlier vacant closed =>
      by_cases here : i = 0
      · subst here
        obtain rfl : d = c := by simpa [seat] using seated
        exact Or.inr (Or.inr rfl)
      · simp [here, vacant] at seated
  | @joinSecond _ j b d h earlier free host other =>
      by_cases here : i = j
      · subst here
        obtain rfl : d = c := by simpa using seated
        exact Or.inr (Or.inr rfl)
      · exact Or.inl ⟨by simpa [here] using seated, rfl⟩
  -- Whoever leaves takes no field with him, but his slot is free.
  | @leave _ j d there =>
      by_cases here : i = j
      · subst here
        simp [Session.freeSlot] at seated
      · exact Or.inl ⟨by simpa [Session.freeSlot, here] using seated, rfl⟩
  | @submit _ j d field there phase =>
      by_cases here : i = j
      · subst here
        exact Or.inr (Or.inl ⟨seated, by simp, phase⟩)
      · exact Or.inl ⟨seated, by simp [here]⟩
  | oneLeft | noneLeft =>
      exact Or.inl ⟨evictInvalid_seated seated, congrFun (evictInvalid_fields _) i⟩
  -- A field that was shot at and is still valid was not changed by the shot.
  | gameOver pending state shot =>
      obtain ⟨fields, frame⟩ := Session.registerShot_frame shot
      refine Or.inl ⟨?_, registerShot_valid shot valid⟩
      simpa [frame] using seated
  | changeTurn pending state shot =>
      obtain ⟨fields, frame⟩ := Session.registerShot_frame shot
      simp only [startTurn_session, withSession_session, Session.nextTurn_players,
        Session.nextTurn_fields] at seated valid ⊢
      exact Or.inl ⟨by simpa [frame] using seated, registerShot_valid shot valid⟩
  | endGame => cases seated

theorem Step.join_new {i : PlayerIdx} {c : ClientId} {room room' : Room}
    (step : Step (.join i c) room room') (j : PlayerIdx) : room.session.players j ≠ some c := by
  cases step with
  | joinFirst vacant => simp [vacant j]
  | joinSecond free host other =>
      fin_cases i <;> fin_cases j <;> simp_all [getEnemyIdx]

theorem Step.join_free {i : PlayerIdx} {c : ClientId} {room room' : Room}
    (step : Step (.join i c) room room') : room.session.players i = none := by
  cases step with
  | joinFirst vacant => exact vacant 0
  | joinSecond free => exact free

/-- Only leaving and the countdowns take a player out of his seat. -/
theorem Step.keeps_player {action : Action} {room room' : Room} (step : Step action room room')
    (stays : ∀ i, action ≠ .leave i) (quiet : ∀ kind draws, action ≠ .fire kind draws) {i : PlayerIdx}
    {c : ClientId} (seated : room.session.players i = some c) :
    room'.session.players i = some c := by
  cases step with
  | idle | ask | submit | move | lateMove => exact seated
  | joinFirst vacant => cases (vacant i).symm.trans seated
  | @joinSecond _ j b d h earlier free =>
      have other : i ≠ j := by
        rintro rfl
        cases free.symm.trans seated
      simpa [other] using seated
  | leave => exact absurd rfl (stays _)
  | _ => exact absurd rfl (quiet _ _)

end Room

namespace Server

theorem message_keeps_seat {srv srv' : Server} (inv : srv.Inv) {c d : ClientId}
    {msg : Message} {now : Int64} (done : srv.step (.message d msg now) = .ok srv')
    {s : SessionId} {i : PlayerIdx} (seated : (srv.sessions s).players i = some c) :
    (srv'.sessions s).players i = some c := by
  obtain ⟨action, caused, step⟩ := ((step_follows inv _).elim done).steps s
  exact step.keeps_player caused.by_message.1 caused.by_message.2 seated

theorem message_keeps_session {srv srv' : Server} (inv : srv.Inv) {c d : ClientId}
    {msg : Message} {now : Int64} (done : srv.step (.message d msg now) = .ok srv')
    {s : SessionId} (member : srv.gameSessionOf c = some s) : srv'.gameSessionOf c = some s := by
  obtain ⟨i, seated⟩ := inv.sound.seats.member s c (gameSessionOf_eq.mp member)
  have follows := (step_follows inv _).elim done
  exact gameSessionOf_eq.mpr (follows.sound.seats.seat s i c (message_keeps_seat inv done seated))

theorem Submitted.member {s : SessionId} {c : ClientId} {field : GameField} {es : List Event}
    {srv : Server} (submitted : Submitted s c field es) (done : run init es = .ok srv) :
    srv.gameSessionOf c = some s := by
  cases submitted with
  | sent before member =>
      have last := run_last step before done
      exact message_keeps_session (run_inv before) last member
  | stayed _ done' member => exact Except.ok.inj (done.symm.trans done') ▸ member

theorem stored_field {srv srv' : Server} (inv : srv.Inv) {s : SessionId} {i : PlayerIdx}
    {c : ClientId} {msg : Message} {now : Int64} {field : GameField} {own : Bool}
    {session : Session} (seated : (srv.sessions s).players i = some c)
    (body : msg.body = .gameField field own) (valid : field.isValidStartField = true)
    (stored : (srv.sessions s).setField c field = some session)
    (done : srv.step (.message c msg now) = .ok srv') :
    (srv'.sessions s).fields i = field := by
  have sound := inv.sound
  have phase : (srv.sessions s).state = .preparation ∨ (srv.sessions s).state = .waitStart := by
    unfold Session.setField at stored
    by_contra other
    rw [if_pos (by tauto)] at stored
    cases stored
  have known := sound.seats.seat s i c seated
  simp [step, processMsg, processGameFieldMsg, body, gameSessionOf_eq.mpr known, valid,
    setField_accepted (sound.apart s) seated phase, sendMsg, setSession, known, Bind.bind,
    Except.bind, Message.type, Body.type] at done
  simp [← done]

/-- As long as the field in his slot is valid, a player who has sent one still
has one of his own there. -/
theorem submitted_field {es : List Event} {srv : Server} (done : run init es = .ok srv) :
    ∀ s i c field, (srv.sessions s).players i = some c → Submitted s c field es →
      ((srv.sessions s).fields i).isValidStartField = true →
      Submitted s c ((srv.sessions s).fields i) es := by
  refine run_history step (fun es srv => ∀ s i c field,
    (srv.sessions s).players i = some c → Submitted s c field es →
    ((srv.sessions s).fields i).isValidStartField = true →
    Submitted s c ((srv.sessions s).fields i) es) ?_ ?_ done
  · intro s i c field seated
    cases seated
  intro es srv e srv' before ih stepped s i c field seated submitted valid
  have inv := run_inv before
  have all : run init (es ++ [e]) = .ok srv' := (run_snoc_ok step).mpr ⟨srv, before, stepped⟩
  have follows := (step_follows inv e).elim stepped
  have member := gameSessionOf_eq.mpr (follows.sound.seats.seat s i c seated)
  rcases submitted.snoc_cases before with old | ⟨session, msg, own, now, rfl, was, body, fits, stored⟩
  · obtain ⟨action, caused, room⟩ := follows.steps s
    rcases room.field seated valid with ⟨sat, kept⟩ | ⟨sat, rfl, phase⟩ | rfl
    · have kept : (srv'.sessions s).fields i = (srv.sessions s).fields i := kept
      rw [kept] at valid ⊢
      exact (ih s i c field sat old valid).stayed all member
    · obtain ⟨d, msg, now, own, rfl, there, body⟩ := caused
      obtain rfl : d = c := Option.some.inj (there.symm.trans sat)
      exact .sent before (old.member before) body valid
        (setField_accepted (inv.sound.apart s) sat phase _)
    · obtain ⟨j, there⟩ := inv.sound.seats.member s c (gameSessionOf_eq.mp (old.member before))
      exact absurd there (room.join_new j)
  · obtain ⟨j, there⟩ := inv.sound.seats.member s c (gameSessionOf_eq.mp was)
    have stays := message_keeps_seat inv stepped there
    obtain rfl : j = i := (follows.sound.one_seat stays seated).2
    rw [stored_field inv there body fits stored stepped]
    exact .sent before was body fits stored

/-- What holds of the run so far and the state whenever `start_game` moves the
session to `GAME_TURN`. -/
def AtStarts (P : List Event → Server → Prop) (s : SessionId) (es : List Event) : Prop :=
  ∀ before e rest srv srv', es = before ++ e :: rest → run init before = .ok srv →
    srv.step e = .ok srv' → (srv.sessions s).state = .waitStart →
    (srv'.sessions s).state = .gameTurn → P before srv

/-- Each player sits before a valid field that he has sent since he joined. -/
def OwnFields (s : SessionId) (es : List Event) (srv : Server) : Prop :=
  ∀ i, ((srv.sessions s).fields i).isValidStartField = true ∧
    ∃ c, (srv.sessions s).players i = some c ∧ Submitted s c ((srv.sessions s).fields i) es

/-- Both fields pass the check, and neither player has never sent a field. -/
def Prepared (s : SessionId) (es : List Event) (srv : Server) : Prop :=
  (∀ i, ((srv.sessions s).fields i).isValidStartField = true) ∧
    ∀ i c, (srv.sessions s).players i = some c → ∃ field, Submitted s c field es

theorem ownFields_iff {s : SessionId} {es : List Event} {srv : Server}
    (done : run init es = .ok srv) (state : (srv.sessions s).state = .waitStart) :
    OwnFields s es srv ↔ Prepared s es srv := by
  have full := ((run_inv done).good s).agrees.full (by simp [state]) (by simp [state])
  constructor
  · refine fun fields => ⟨fun i => (fields i).1, fun i c seated => ?_⟩
    obtain ⟨_, d, there, submitted⟩ := fields i
    obtain rfl : d = c := Option.some.inj (there.symm.trans seated)
    exact ⟨_, submitted⟩
  · rintro ⟨valid, sent⟩ i
    obtain ⟨c, seated⟩ := full i
    obtain ⟨field, submitted⟩ := sent i c seated
    exact ⟨valid i, c, seated, submitted_field done s i c field seated submitted (valid i)⟩

end Server

/-- In every run, the games of a session all start with valid fields of their own
players exactly if at every start both fields are valid and both players have
had one stored since they joined. -/
theorem start_fields_own_iff (s : SessionId) (es : List Server.Event) :
    Server.AtStarts (Server.OwnFields s) s es ↔ Server.AtStarts (Server.Prepared s) s es := by
  refine forall₅_congr fun before e rest srv srv' => ?_
  refine imp_congr_right fun _ => imp_congr_right fun done => imp_congr_right fun _ =>
    imp_congr_right fun state => imp_congr_right fun _ => Server.ownFields_iff done state

/-- The second player leaves after both have sent their fields, and the newcomer in
his slot sends none: the game starts with the field of the one who left. -/
def inherited : List Server.Event :=
  [.accept, .accept, .message 0 ⟨1, .gameSessionReq⟩ 0, .message 1 ⟨1, .gameSessionReq⟩ 0,
    .message 0 ⟨2, .gameField openingField true⟩ 0,
    .message 1 ⟨2, .gameField openingField true⟩ 0, .broken 1,
    .accept, .message 2 ⟨1, .gameSessionReq⟩ 20, .timer 1 71 0 91 [], .timer 2 3 0 94 []]

theorem inherited_field : ¬ ∀ s es, Server.AtStarts (Server.OwnFields s) s es := by
  intro own
  have started := Server.run_after (inherited ++ [.timer 3 3 0 97 [0]]) (by decide +kernel)
  obtain ⟨srv, done, stepped⟩ := (run_snoc_ok Server.step).mp started
  obtain rfl := Server.after_eq done
  obtain ⟨_, c, seated, submitted⟩ := own 0 _ inherited _ [] _ _ rfl done stepped
    (by decide +kernel) (by decide +kernel) 1
  obtain rfl : c = 2 := by
    have sits : ((Server.after inherited).sessions 0).players 1 = some 2 := by decide +kernel
    exact Option.some.inj (seated.symm.trans sits)
  obtain ⟨msg, now, own, member, body⟩ := submitted.message_mem
  simp [inherited] at member
  simp [member] at body

end Battleship
