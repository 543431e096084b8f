import Battleship.StartFields
import Battleship.Muted

/-! Copies of messages. A client sends a message again when its receipt is late, and
the server handles the copy like any other message; it goes unnoticed exactly if it
finds the server in a state that makes nothing of it. -/
namespace Battleship

open Runs

namespace Room

theorem Step.join_state {i : PlayerIdx} {c : ClientId} {room room' : Room}
    (step : Step (.join i c) room room') : room'.session.state ≠ room.session.state := by
  cases step with
  | joinFirst vacant closed => simp [closed]
  | joinSecond free host other waiting => simp [waiting]

/-- A move that leaves the session as it was is none, and comes after its turn. -/
theorem Step.move_unseen {point : Point} {room room' : Room}
    (step : Step (.move point) room room') (state : room'.session.state = room.session.state) :
    room.session.state = .processTurn := by
  cases step with
  | move turn => cases turn.symm.trans state.symm
  | lateMove turn => exact turn

end Room

namespace Server

def play (srv : Server) (s : SessionId) : GameState × (PlayerIdx → GameField) × PlayerIdx × Point :=
  ((srv.sessions s).state, (srv.sessions s).fields, (srv.sessions s).curTurnPlayerIdx,
    (srv.sessions s).lastShot)

/-- Whatever happens from now on, the sessions of both servers go the same way. -/
def SameEvolution (srv t : Server) : Prop :=
  ∀ es, (run srv es).map play = (run t es).map play

theorem sameEvolution_of_mute {srv t : Server} (same : srv.mute = t.mute) :
    SameEvolution srv t := by
  intro es
  have runs := blind_run step_blind es srv t same
  have shown (x : Except Fault Server) : x.map play = (x.map mute).map play := by
    cases x <;> rfl
  rw [shown (run srv es), shown (run t es)]
  exact congrArg (Except.map play) runs

/-- What must hold of the server for a message to have no effect on any session: a
request comes from a player or finds all sessions full, a field is the one that is
there already or is refused, a move is refused or is none. -/
def HarmlessCopy (srv : Server) (c : ClientId) (msg : Message) : Prop :=
  match msg.body with
  | .gameSessionReq => (srv.gameSessionOf c).isSome = true ∨
      ∀ s < gameCount, (srv.sessions s).isVacant = false
  | .gameField field _ => ∀ s i, (srv.sessions s).players i = some c →
      field.isValidStartField = true →
      ((srv.sessions s).state = .preparation ∨ (srv.sessions s).state = .waitStart) →
      (srv.sessions s).fields i = field
  | .gameMove x y => ∀ s, (srv.sessions s).Playing →
      (srv.sessions s).players (srv.sessions s).curTurnPlayerIdx = some c →
      (srv.sessions s).lastShot = noShot →
      (⟨x.toInt, y.toInt⟩ : Point) = noShot ∧ (srv.sessions s).state = .processTurn
  | _ => True

theorem sendMsg_mute {srv srv' : Server} {c : ClientId} {msg : Message}
    (done : srv.sendMsg c msg = .ok srv') : srv'.mute = srv.mute := by
  unfold sendMsg at done
  split at done
  · cases done
  · cases done
    rfl

theorem request_unseen {srv srv' : Server} (inv : srv.Inv) {c : ClientId} {now : Int64}
    (harmless : (srv.gameSessionOf c).isSome = true ∨
      ∀ s < gameCount, (srv.sessions s).isVacant = false)
    (alive : srv.clients c ≠ none)
    (done : srv.processGameSessionReqMsg c now = .ok srv') : srv'.mute = srv.mute := by
  unfold processGameSessionReqMsg at done
  cases session : srv.gameSessionOf c with
  | some s =>
      have ready : (srv.sessions s).state ≠ .waitPreparation := (inv.good s).ready
      simp only [session, ready, ↓reduceIte] at done
      exact sendMsg_mute done
  | none =>
      have full := harmless.resolve_left (by simp [session])
      rcases connect_alone inv.sound (gameSessionOf_alone alive session) with
        ⟨_, refused⟩ | ⟨s, srv₁, vacant, _, shows_⟩
      · simp only [session, refused] at done
        exact sendMsg_mute done
      · have open_ := full s (Nat.lt_of_lt_of_le shows_.born shows_.sound.seats.few)
        cases vacant.symm.trans open_

theorem field_unseen {srv srv' : Server} (inv : srv.Inv) {c : ClientId} {id : Int64}
    {field : GameField}
    (harmless : ∀ s i, (srv.sessions s).players i = some c → field.isValidStartField = true →
      ((srv.sessions s).state = .preparation ∨ (srv.sessions s).state = .waitStart) →
      (srv.sessions s).fields i = field)
    (done : srv.processGameFieldMsg c id field = .ok srv') : srv'.mute = srv.mute := by
  unfold processGameFieldMsg at done
  split at done
  · exact sendMsg_mute done
  rename_i s session
  obtain ⟨i, seated⟩ := inv.sound.seats.member s c (gameSessionOf_eq.mp session)
  split at done
  · exact sendMsg_mute done
  rename_i valid
  have valid : field.isValidStartField = true := by simpa using valid
  by_cases phase : (srv.sessions s).state = .preparation ∨ (srv.sessions s).state = .waitStart
  · have stored := setField_accepted (inv.sound.apart s) seated phase field
    rw [← harmless s i seated valid phase, Function.update_eq_self] at stored
    simp only [← harmless s i seated valid phase, stored] at done
    refine (sendMsg_mute done).trans ?_
    simp [mute, setSession]
  · have refused : (srv.sessions s).setField c field = none := if_pos (by tauto)
    simp only [refused] at done
    exact sendMsg_mute done

theorem move_unseen {srv srv' : Server} (inv : srv.Inv) {c : ClientId} {point : Point}
    (harmless : ∀ s, (srv.sessions s).Playing →
      (srv.sessions s).players (srv.sessions s).curTurnPlayerIdx = some c →
      (srv.sessions s).lastShot = noShot → point = noShot ∧ (srv.sessions s).state = .processTurn)
    (done : srv.processGameMoveMsg c point = .ok srv') : srv'.mute = srv.mute := by
  unfold processGameMoveMsg at done
  split at done
  · exact sendMsg_mute done
  rename_i s session
  split at done
  · rename_i playing
    split at done
    · rename_i changed accepted
      unfold Session.setLastShot at accepted
      split at accepted
      · rename_i allowed
        -- The move is accepted: it is the sender's turn and no move is set.
        have own := (Session.getPlayerIndex_eq (inv.sound.apart s)).mp allowed.1
        have clear : (srv.sessions s).lastShot = noShot := by
          simpa [Session.hasLastShot] using allowed.2
        obtain ⟨rfl, state⟩ := harmless s playing own clear
        obtain rfl := Option.some.inj accepted
        -- A move to (-1, -1) is the mark for no move, and `end_turn` asks for GAME_TURN.
        have unchanged : srv.setSession s { srv.sessions s with lastShot := noShot } = srv := by
          rw [← clear]
          simp [setSession]
        rw [unchanged] at done
        unfold endTurn at done
        rw [if_pos (by simp [state])] at done
        cases done
        rfl
      · cases accepted
    · cases done
      rfl
  · cases done
    rfl

theorem copy_unseen {srv srv' : Server} (inv : srv.Inv) {c : ClientId} {msg : Message}
    {now : Int64} (harmless : srv.HarmlessCopy c msg)
    (done : srv.step (.message c msg now) = .ok srv') : srv'.mute = srv.mute := by
  simp only [step] at done
  split at done
  · rename_i alive
    have alive := Option.isSome_iff_ne_none.mp alive
    unfold processMsg at done
    unfold HarmlessCopy at harmless
    -- Behind each handler stands the receipt, which only fills the queue.
    have answered {x : Except Fault Server}
        (changes : ∀ srv₁, x = .ok srv₁ → srv₁.mute = srv.mute)
        (done : (x >>= fun srv₁ : Server =>
          if msg.type ≠ .receipt then srv₁.sendMsg c (Message.new (.receipt msg.id))
          else .ok srv₁) = .ok srv') : srv'.mute = srv.mute := by
      obtain ⟨srv₁, handled, answered⟩ := bind_ok done
      split at answered
      · exact (sendMsg_mute answered).trans (changes srv₁ handled)
      · cases answered
        exact changes srv' handled
    cases body : msg.body with
    | gameSessionReq =>
        simp only [body] at done harmless
        exact answered (fun srv₁ handled => request_unseen inv harmless alive handled) done
    | gameField field own =>
        simp only [body] at done harmless
        exact answered (fun srv₁ handled => field_unseen inv harmless handled) done
    | gameMove x y =>
        simp only [body] at done harmless
        exact answered (fun srv₁ handled => move_unseen inv harmless handled) done
    -- No other message reaches a session.
    | _ =>
        simp only [body] at done
        refine answered (x := .ok srv) (fun srv₁ handled => ?_) done
        cases handled
        rfl
  · cases done

theorem harmless_of_play {srv srv' : Server} (inv : srv.Inv) {c : ClientId} {msg : Message}
    {now : Int64} (done : srv.step (.message c msg now) = .ok srv')
    (same : srv'.play = srv.play) : srv.HarmlessCopy c msg := by
  have state (s : SessionId) : (srv'.sessions s).state = (srv.sessions s).state :=
    congrArg Prod.fst (congrFun same s)
  have fields (s : SessionId) : (srv'.sessions s).fields = (srv.sessions s).fields :=
    congrArg (·.2.1) (congrFun same s)
  have lastShot (s : SessionId) : (srv'.sessions s).lastShot = (srv.sessions s).lastShot :=
    congrArg (·.2.2.2) (congrFun same s)
  unfold HarmlessCopy
  cases body : msg.body with
  | gameSessionReq =>
      -- A request joins a session, which shows in its state, or finds the server full.
      cases session : srv.gameSessionOf c with
      | some s => exact Or.inl rfl
      | none =>
          have alive : srv.clients c ≠ none := by
            rintro gone
            simp [step, gone] at done
          rcases step_joins inv (gameSessionOf_alone alive session) body now with
            full | ⟨s, i, joins⟩
          · exact Or.inr full
          · obtain ⟨room', joined, shows_⟩ := joins.elim done
            have unchanged := state s
            rw [shows_.session] at unchanged
            exact absurd unchanged joined.join_state
  | gameField field own =>
      intro s i seated valid phase
      rw [← fields s]
      exact stored_field inv seated body valid (setField_accepted (inv.sound.apart s) seated phase
        field) done
  | gameMove x y =>
      intro s playing own clear
      obtain ⟨room', moved, shows_⟩ := (step_moves inv own playing clear body now).elim done
      have point := moved.move_lastShot
      have unchanged := state s
      rw [← shows_.session, lastShot s] at point
      rw [shows_.session] at unchanged
      exact ⟨point.symm.trans clear, moved.move_unseen unchanged⟩
  | _ => trivial

end Server

/-- A copy of a message that was handled before goes unnoticed for good exactly if it
is harmless in the state it finds. -/
theorem copy_unnoticed_iff {before later : List Server.Event} {c : ClientId} {msg : Message}
    {now now' : Int64} {srv srv' : Server}
    (handled : Server.run Server.init (before ++ .message c msg now :: later) = .ok srv)
    (copy : srv.step (.message c msg now') = .ok srv') :
    Server.SameEvolution srv' srv ↔ srv.HarmlessCopy c msg := by
  have inv := Server.run_inv handled
  constructor
  · intro evolves
    have here := evolves []
    exact Server.harmless_of_play inv copy (Except.ok.inj here)
  · intro harmless
    exact Server.sameEvolution_of_mute (Server.copy_unseen inv harmless copy)

/-- The first player has sent his move, and a copy of it arrives in the same turn. -/
def movedOnce : List Server.Event := opening ++ [.message 0 ⟨3, .gameMove 3 3⟩ 78]

theorem copy_unnoticed_in_turn :
    Server.SameEvolution (Server.after (movedOnce ++ [.message 0 ⟨3, .gameMove 3 3⟩ 79]))
      (Server.after movedOnce) := by
  have whole := Server.run_after (movedOnce ++ [.message 0 ⟨3, .gameMove 3 3⟩ 79])
    (by decide +kernel)
  obtain ⟨srv, handled, copy⟩ := (run_snoc_ok Server.step).mp whole
  obtain rfl := Server.after_eq handled
  have once : Server.run Server.init (opening ++ .message 0 ⟨3, .gameMove 3 3⟩ 78 :: []) =
      .ok (Server.after movedOnce) := handled
  refine (copy_unnoticed_iff once copy).mpr ?_
  intro s _ own clear
  have member := (Server.run_inv handled).sound.seats.seat s _ 0 own
  have here : (Server.after movedOnce).gameSessionOf 0 = some 0 := by decide +kernel
  obtain rfl : s = 0 :=
    Option.some.inj ((Server.gameSessionOf_eq.mpr member).symm.trans here)
  have set : ((Server.after movedOnce).sessions 0).lastShot ≠ noShot := by decide +kernel
  exact absurd clear set

def movedBoth : List Server.Event :=
  movedOnce ++ [.timer 4 3 0 81 [1, 1], .message 1 ⟨3, .gameMove 5 5⟩ 82, .timer 6 3 0 85 [1, 1]]

/-- The copy of the first move ends the new turn. -/
theorem move_taken_twice : ¬ ∀ before later c msg now now' srv srv',
    Server.run Server.init (before ++ .message c msg now :: later) = .ok srv →
    srv.step (.message c msg now') = .ok srv' → Server.SameEvolution srv' srv := by
  intro unnoticed
  have whole := Server.run_after (movedBoth ++ [.message 0 ⟨3, .gameMove 3 3⟩ 86])
    (by decide +kernel)
  obtain ⟨srv, handled, copy⟩ := (run_snoc_ok Server.step).mp whole
  obtain rfl := Server.after_eq handled
  have evolves := unnoticed opening _ 0 _ 78 86 _ _ handled copy []
  have state := congrArg Prod.fst (congrFun (Except.ok.inj evolves) 0)
  revert state
  decide +kernel

end Battleship
