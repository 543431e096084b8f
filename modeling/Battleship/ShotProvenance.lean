import Battleship.StartFields

/-! Where the shot of a turn comes from. `last_shot` is one slot of the session and
is cleared by a shot alone, so what an earlier game has left in it reaches the next
one exactly if it is still there when that game starts. -/
namespace Battleship

open Runs

namespace Server

/-- The player whose turn it is has sent the move in this game, and no shot has
been registered in a field since. -/
inductive SentSinceShot (s : SessionId) (point : Point) : List Event → Prop where
  | sent {es : List Event} {srv : Server} {c : ClientId} {msg : Message} {now : Int64}
      {x y : Int32} (done : run init es = .ok srv) (playing : (srv.sessions s).Playing)
      (own : (srv.sessions s).players (srv.sessions s).curTurnPlayerIdx = some c)
      (body : msg.body = .gameMove x y) (here : point = ⟨x.toInt, y.toInt⟩) :
      SentSinceShot s point (es ++ [.message c msg now])
  | kept {es : List Event} {e : Event} {srv srv' : Server} (before : SentSinceShot s point es)
      (done : run init es = .ok srv) (next : srv.step e = .ok srv')
      (playing : (srv'.sessions s).Playing)
      (noShot : (srv'.sessions s).fields = (srv.sessions s).fields) :
      SentSinceShot s point (es ++ [e])

/-- What `change_turn_player` tries first is a move that the player whose turn it is has sent
since the last shot, or a drawn point if he has sent none; and as long as he has sent
nothing his move is accepted. -/
structure ShotsOwn (s : SessionId) (es : List Event) (srv : Server) : Prop where
  tried : (srv.sessions s).state = .processTurn →
    (∃ point, point ≠ noShot ∧ SentSinceShot s point es ∧
      ∀ draws, (srv.sessions s).firstTry draws = some (point, draws)) ∨
    ((∀ point, SentSinceShot s point es → point = noShot) ∧
      ∀ x y draws, (srv.sessions s).firstTry (x :: y :: draws) =
        some (Session.randomPoint x y, draws))
  accepted : (srv.sessions s).state = .gameTurn → (∀ point, ¬ SentSinceShot s point es) →
    ∀ c point, (srv.sessions s).players (srv.sessions s).curTurnPlayerIdx = some c →
      (srv.sessions s).setLastShot point c ≠ none

/-- The property holds of every state of the run with the events before it. -/
def Throughout (P : List Event → Server → Prop) (es : List Event) : Prop :=
  ∀ before rest srv, es = before ++ rest → run init before = .ok srv → P before srv

end Server

namespace Room

theorem Step.keeps_playing {action : Action} {room room' : Room}
    (step : Step action room room') (stays : ∀ i, action ≠ .leave i)
    (quiet : ∀ kind draws, action ≠ .fire kind draws) (playing : room.session.Playing) :
    room'.session.Playing := by
  cases step with
  | idle | ask | lateMove => exact playing
  | joinFirst vacant closed => rcases playing with turn | turn <;> simp_all
  | joinSecond free host other waiting => rcases playing with turn | turn <;> simp_all
  | leave => exact absurd rfl (stays _)
  | submit seated phase =>
      rcases playing with turn | turn <;> rcases phase with phase | phase <;> simp_all
  | move => exact Or.inr rfl
  | _ => exact absurd rfl (quiet _ _)

/-- How a step reaches or keeps a turn, and what it does to the move that is set. -/
theorem Step.lastShot {action : Action} {room room' : Room} (step : Step action room room')
    (agrees : room.session.Agrees) (playing : room'.session.Playing) :
    (room'.session.state = room.session.state ∧
        room'.session.lastShot = room.session.lastShot ∧
        room'.session.fields = room.session.fields) ∨
      (room.session.state = .waitStart ∧ room'.session.state = .gameTurn ∧
        room'.session.lastShot = room.session.lastShot) ∨
      (room.session.state = .gameTurn ∧ room.session.lastShot = room'.session.lastShot ∧
        room'.session.state = .processTurn) ∨
      ((∃ draws, action = .fire .changeTurn draws) ∧ room.session.state = .processTurn ∧
        room'.session.lastShot = noShot ∧ room'.session.fields ≠ room.session.fields) ∨
      (action = .move room'.session.lastShot ∧ room.session.lastShot = noShot ∧
        room.session.Playing ∧ room'.session.state = .processTurn) := by
  cases step with
  | idle | ask | expire | fieldsAccepted => exact Or.inl ⟨rfl, rfl, rfl⟩
  | joinFirst | joinSecond | stopPreparation | oneLeft | endGame =>
      rcases playing with turn | turn <;> cases turn
  -- These actions end outside the turns.
  | leave =>
      have waits : ∀ i, (room.session.freeSlot i).state = .waitPlayer ∨
          (room.session.freeSlot i).state = .noVacantGame := by
        intro i
        simp only [Session.freeSlot]
        split_ifs <;> simp
      rcases playing with turn | turn <;> rcases waits _ with wait | wait <;>
        cases wait.symm.trans turn
  | submit seated phase =>
      rcases playing with turn | turn <;> rcases phase with phase | phase <;>
        cases phase.symm.trans turn
  | noneLeft pending left =>
      have closed : room.session.evictInvalid.state = .noVacantGame :=
        ((agrees.evict 0).evict 1).1.mp left
      rcases playing with turn | turn <;> cases closed.symm.trans turn
  | move turn clear => exact Or.inr (Or.inr (Or.inr (Or.inr ⟨rfl, clear, Or.inl turn, rfl⟩)))
  | lateMove turn clear => exact Or.inr (Or.inr (Or.inr (Or.inr ⟨rfl, clear, Or.inr turn, turn⟩)))
  | startGame pending state => exact Or.inr (Or.inl ⟨state, rfl, rfl⟩)
  | endTurn pending state => exact Or.inr (Or.inr (Or.inl ⟨state, rfl, rfl⟩))
  | gameOver pending state shot =>
      have hit := Session.registerShot_fields shot
      obtain ⟨fields, rfl⟩ := Session.registerShot_frame shot
      exact Or.inr (Or.inr (Or.inr (Or.inl ⟨⟨_, rfl⟩, state, rfl, hit⟩)))
  | changeTurn pending state shot =>
      have hit := Session.registerShot_fields shot
      obtain ⟨fields, rfl⟩ := Session.registerShot_frame shot
      exact Or.inr (Or.inr (Or.inr (Or.inl ⟨⟨_, rfl⟩, state, by simp, by simpa using hit⟩)))

end Room

namespace Server

theorem AtStarts.init_part {P : List Event → Server → Prop} {s : SessionId} {es : List Event}
    {e : Event} (starts : AtStarts P s (es ++ [e])) : AtStarts P s es := by
  intro before e' rest srv srv' whole
  exact starts before e' (rest ++ [e]) srv srv' (by simp [whole])

theorem SentSinceShot.playing {s : SessionId} {point : Point} {es : List Event} {srv : Server}
    (sent : SentSinceShot s point es) (done : run init es = .ok srv) :
    (srv.sessions s).Playing := by
  cases sent with
  | sent before playing own body here =>
      have last := run_last step before done
      obtain ⟨action, caused, room⟩ := ((step_follows (run_inv before) _).elim last).steps s
      exact room.keeps_playing caused.by_message.1 caused.by_message.2 playing
  | kept _ before next playing =>
      obtain rfl := Except.ok.inj (next.symm.trans (run_last step before done))
      exact playing

theorem not_sent_at_start {s : SessionId} {es : List Event} {e : Event} {srv : Server}
    (done : run init es = .ok srv) (waiting : ¬ (srv.sessions s).Playing) (point : Point) :
    ¬ SentSinceShot s point (es ++ [e]) := by
  intro sent
  generalize whole : es ++ [e] = all at sent
  cases sent with
  | sent before playing =>
      obtain ⟨rfl, _⟩ := List.append_inj' whole rfl
      exact waiting (Except.ok.inj (before.symm.trans done) ▸ playing)
  | kept sent before =>
      obtain ⟨rfl, _⟩ := List.append_inj' whole rfl
      exact waiting (sent.playing done)

theorem SentSinceShot.set {s : SessionId} {point : Point} {es : List Event} {srv : Server}
    (sent : SentSinceShot s point es) (done : run init es = .ok srv) (real : point ≠ noShot) :
    (srv.sessions s).lastShot ≠ noShot := by
  induction sent generalizing srv with
  | @sent es srv₁ c msg now x y before playing own body here =>
      have playing' := (SentSinceShot.sent before playing own body here).playing done
      have last := run_last step before done
      have inv := run_inv before
      by_cases clear : (srv₁.sessions s).lastShot = noShot
      · obtain ⟨room', moved, shows_⟩ := (step_moves inv own playing clear body now).elim last
        rw [shows_.session, moved.move_lastShot, ← here]
        exact real
      · -- The move is refused, and the one that is set stays.
        obtain ⟨action, caused, room⟩ := ((step_follows inv _).elim last).steps s
        rcases room.lastShot (inv.good s).agrees playing' with ⟨_, kept, _⟩ | ⟨waiting, _⟩ |
          ⟨_, kept, _⟩ | ⟨⟨draws, fires⟩, _⟩ | ⟨_, unset, _⟩
        · exact fun none => clear (kept.symm.trans none)
        · rcases playing with turn | turn <;> cases waiting.symm.trans turn
        · exact fun none => clear (kept.trans none)
        · exact absurd fires (caused.by_message.2 _ draws)
        · exact absurd unset clear
  | @kept es e srv₁ srv₂ sent before next playing noShot ih =>
      obtain rfl := Except.ok.inj (next.symm.trans (run_last step before done))
      have inv := run_inv before
      have set := ih before
      obtain ⟨action, caused, room⟩ := ((step_follows inv _).elim next).steps s
      rcases room.lastShot (inv.good s).agrees playing with ⟨_, kept, _⟩ | ⟨waiting, _⟩ |
        ⟨_, kept, _⟩ | ⟨_, _, _, hit⟩ | ⟨_, unset, _⟩
      · exact fun none => set (kept.symm.trans none)
      · rcases sent.playing before with turn | turn <;> cases waiting.symm.trans turn
      · exact fun none => set (kept.trans none)
      · exact absurd noShot hit
      · exact absurd unset set

/-- Where every game starts with no move set, no other move than one of the turn is
ever set. -/
theorem lastShot_own {s : SessionId} {es : List Event} {srv : Server}
    (done : run init es = .ok srv)
    (clear : AtStarts (fun _ srv => (srv.sessions s).lastShot = noShot) s es) :
    ((srv.sessions s).state = .gameTurn → (srv.sessions s).lastShot = noShot) ∧
      ((srv.sessions s).state = .processTurn → (srv.sessions s).lastShot ≠ noShot →
        SentSinceShot s (srv.sessions s).lastShot es) := by
  revert clear
  refine run_history step (fun es srv =>
    AtStarts (fun _ srv => (srv.sessions s).lastShot = noShot) s es →
      ((srv.sessions s).state = .gameTurn → (srv.sessions s).lastShot = noShot) ∧
      ((srv.sessions s).state = .processTurn → (srv.sessions s).lastShot ≠ noShot →
        SentSinceShot s (srv.sessions s).lastShot es))
    ?_ ?_ done
  · intro _
    constructor <;> intro state <;> cases state
  intro es srv e srv' before ih stepped clear
  obtain ⟨turn, process⟩ := ih clear.init_part
  have inv := run_inv before
  obtain ⟨action, caused, room⟩ := ((step_follows inv e).elim stepped).steps s
  have last (playing : (srv'.sessions s).Playing) := room.lastShot (inv.good s).agrees playing
  simp only [room_session] at last
  constructor
  · intro state
    rcases last (Or.inl state) with ⟨same, kept, _⟩ | ⟨waiting, _, kept⟩ | ⟨_, _, state'⟩ |
      ⟨_, _, none, _⟩ | ⟨_, _, _, state'⟩
    · exact kept.trans (turn (same ▸ state))
    -- Here a game begins, and by assumption with no move set.
    · exact kept.trans (clear es e [] srv srv' rfl before stepped waiting state)
    · cases state.symm.trans state'
    · exact none
    · cases state.symm.trans state'
  · intro state set
    rcases last (Or.inr state) with ⟨same, kept, fields⟩ | ⟨_, state', _⟩ | ⟨was, kept, _⟩ |
      ⟨_, _, none, _⟩ | ⟨move, _, playing, _⟩
    · rw [kept] at set ⊢
      -- No shot since: the fields are those of before.
      exact .kept (process (same ▸ state) set) before stepped (Or.inr state) fields
    · cases state.symm.trans state'
    · exact absurd (kept.symm.trans (turn was)) set
    · exact absurd none set
    · subst move
      obtain ⟨c, msg, now, x, y, rfl, own, body, here⟩ := caused
      exact .sent before playing own body here

end Server

/-- In every run, the shots of a session are all its own players' moves of the turn or drawn,
and no first move of a turn is rejected, exactly if `last_shot` is clear whenever a
game of the session starts. -/
theorem shots_own_iff (s : SessionId) (es : List Server.Event) :
    Server.Throughout (Server.ShotsOwn s) es ↔
      Server.AtStarts (fun _ srv => (srv.sessions s).lastShot = noShot) s es := by
  constructor
  · intro own before e rest srv srv' whole done stepped waiting turn
    have inv := Server.run_inv done
    have all : Server.run Server.init (before ++ [e]) = .ok srv' :=
      (run_snoc_ok Server.step).mpr ⟨srv, done, stepped⟩
    have inv' := Server.step_inv inv stepped
    have idle : ¬ (srv.sessions s).Playing := by
      rintro (playing | playing) <;> cases waiting.symm.trans playing
    obtain ⟨c, seated⟩ := (inv'.good s).agrees.full (by simp [turn]) (by simp [turn])
      (srv'.sessions s).curTurnPlayerIdx
    have accepts := (own (before ++ [e]) rest srv' (by simp [whole]) all).accepted turn
      (Server.not_sent_at_start done idle) c noShot seated
    have clear : (srv'.sessions s).lastShot = noShot := by
      by_contra set
      exact accepts (by simp [Session.setLastShot, Session.hasLastShot, set])
    obtain ⟨action, _, room⟩ := ((Server.step_follows inv e).elim stepped).steps s
    rcases room.lastShot (inv.good s).agrees (Or.inl turn) with ⟨same, _⟩ | ⟨_, _, kept⟩ |
      ⟨was, _⟩ | ⟨_, was, _⟩ | ⟨_, _, playing, _⟩
    · cases waiting.symm.trans (same.symm.trans turn)
    · exact kept.symm.trans clear
    · cases waiting.symm.trans was
    · cases waiting.symm.trans was
    · exact absurd playing idle
  · intro clear before rest srv whole done
    have part : Server.AtStarts (fun _ srv => (srv.sessions s).lastShot = noShot) s before := by
      intro first e last srv₁ srv₂ split
      exact clear first e (last ++ rest) srv₁ srv₂ (by simp [whole, split])
    obtain ⟨turn, process⟩ := Server.lastShot_own done part
    refine ⟨fun state => ?_, fun state _ c point own => ?_⟩
    · by_cases set : (srv.sessions s).lastShot = noShot
      · refine .inr ⟨fun point sent => ?_, fun x y draws => by
          simp [Session.firstTry, Session.hasLastShot, set]⟩
        by_contra real
        exact sent.set done real set
      · refine .inl ⟨_, set, process state set, fun draws => ?_⟩
        simp [Session.firstTry, Session.hasLastShot, set]
    · have index := (Session.getPlayerIndex_eq ((Server.run_inv done).sound.apart s)).mpr own
      simp [Session.setLastShot, Session.hasLastShot, turn state, index]

/-- The first player has sent a move when the second leaves; a newcomer takes the
seat and a new game is about to start. -/
def leftover : List Server.Event :=
  opening ++ [.message 0 ⟨3, .gameMove 3 3⟩ 80, .broken 1, .accept,
    .message 2 ⟨1, .gameSessionReq⟩ 81, .timer 5 71 0 152 [], .timer 6 3 0 155 []]

/-- It is the newcomer's turn and he sends nothing, but the old move is tried. -/
theorem leftover_shot : ¬ ∀ s es, Server.Throughout (Server.ShotsOwn s) es := by
  intro own
  have turn := Server.run_after (leftover ++ [.timer 7 3 0 158 [1]] ++ [.timer 8 16 0 174 []])
    (by decide +kernel)
  obtain ⟨_, started, _⟩ := (run_snoc_ok Server.step).mp turn
  obtain ⟨srv, before, _⟩ := (run_snoc_ok Server.step).mp started
  have first : ((Server.after (leftover ++ [.timer 7 3 0 158 [1]] ++
      [.timer 8 16 0 174 []])).sessions 0).firstTry [0, 0] = some (⟨3, 3⟩, [0, 0]) := by
    decide +kernel
  rcases (own 0 _ _ [] _ (List.append_nil _).symm turn).tried (by decide +kernel) with
    ⟨point, _, sent, _⟩ | ⟨_, drawn⟩
  · generalize whole : leftover ++ [.timer 7 3 0 158 [1]] ++ [.timer 8 16 0 174 []] = all at sent
    cases sent with
    | sent => cases (List.append_inj' whole rfl).2
    | kept sent =>
        obtain ⟨rfl, _⟩ := List.append_inj' whole rfl
        refine Server.not_sent_at_start before ?_ _ sent
        obtain rfl := Server.after_eq before
        rintro (state | state) <;> revert state <;> decide +kernel
  · cases first.symm.trans (drawn 0 0 [])

end Battleship
