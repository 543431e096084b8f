import Battleship.SessionSafety

/-! What the players know: the last session state each of them was told is the
state of the session, until a player who is not alone leaves. -/
namespace Battleship

open Runs

namespace Room

/-- Both players were last told the present state. -/
def Informed (room : Room) : Prop :=
  ∀ i c, room.session.players i = some c →
    (room.told i).getLast?.map GameState.meant = some room.session.state

theorem Informed.told_all {room : Room} {state : GameState} (earlier : PlayerIdx → List GameState)
    (told : ∀ i, room.told i = earlier i ++ [state])
    (meant : state.meant = room.session.state) : room.Informed := by
  intro i c _
  simp [told i, meant]

theorem Informed.of_nobody {room : Room} (nobody : ∀ i, room.session.players i = none) :
    room.Informed := by
  intro i c seated
  cases (nobody i).symm.trans seated

theorem Informed.frame {room room' : Room} (informed : room.Informed)
    (players : room'.session.players = room.session.players)
    (state : room'.session.state = room.session.state) (told : room'.told = room.told) :
    room'.Informed := by
  intro i c seated
  rw [state, told]
  exact informed i c (players ▸ seated)

theorem leave_informed {room : Room} (agrees : room.session.Agrees) (informed : room.Informed)
    {i : PlayerIdx} {c : ClientId} (seated : room.session.players i = some c) :
    (room.leave i).Informed ↔ room.session.getPlayersCount = 1 := by
  have fewer := Session.count_freeSlot seated
  constructor
  · intro told
    by_contra two
    have busy := Session.agrees_iff.mp agrees
    have left : (room.session.freeSlot i).getPlayersCount ≠ 0 := by omega
    obtain ⟨j, d, stays⟩ : ∃ j d, (room.session.freeSlot i).players j = some d := by
      by_contra nobody
      refine left (Session.count_zero_iff.mpr fun j => ?_)
      exact Option.eq_none_iff_forall_ne_some.mpr fun d here => nobody ⟨j, d, here⟩
    have other : j ≠ i := by
      rintro rfl
      simp [Session.freeSlot] at stays
    have before : room.session.players j = some d := by
      simpa [Session.freeSlot, other] using stays
    have knew := informed j d before
    have knows := told j d stays
    simp only [Room.leave, Function.update_of_ne other, knew] at knows
    have started : room.session.state ≠ .waitPlayer := by
      rcases busy with ⟨_, none⟩ | ⟨_, one⟩ | ⟨_, started, _⟩
      · omega
      · exact absurd one two
      · exact started
    simp [Session.freeSlot, started] at knows
  · intro one
    exact .of_nobody (Session.count_zero_iff.mp (show (room.session.freeSlot i).getPlayersCount = 0 by
      omega))

theorem meant_meant (state : GameState) : state.meant.meant = state.meant := by
  cases state <;> rfl

theorem tellResult_last (room : Room) (i : PlayerIdx) :
    ((room.tellResult.told i).getLast?).map GameState.meant = some .processTurn := by
  unfold tellResult tell Session.enemyIdx
  generalize room.session.curTurnPlayerIdx = own
  fin_cases own <;> fin_cases i <;> simp [getEnemyIdx, GameState.meant]

theorem Step.informed {action : Action} {room room' : Room} (step : Step action room room')
    (informed : room.Informed)
    (stays : ∀ i, action = .leave i → room.session.getPlayersCount = 1) : room'.Informed := by
  cases step with
  | idle | submit | lateMove | expire | fieldsAccepted => exact informed.frame rfl rfl rfl
  | joinFirst vacant closed =>
      intro i c seated
      fin_cases i
      · simp [tell, seat, withSession, GameState.meant]
      · simp [vacant] at seated
  | joinSecond => exact .told_all (room.seat _ _ _).told (fun _ => rfl) rfl
  | leave seated =>
      have one := stays _ rfl
      have fewer := Session.count_freeSlot seated
      exact .of_nobody (Session.count_zero_iff.mp (by simp only [leave_session]; omega))
  | @ask _ i c seated =>
      intro j d there
      by_cases same : j = i
      · subst same
        obtain ⟨last, _, knows⟩ := Option.map_eq_some_iff.mp (informed j c seated)
        simp [tell, ← knows, meant_meant]
      · simpa [tell, same] using informed j d there
  | move => exact .told_all room.told (fun _ => rfl) rfl
  | stopPreparation => exact .told_all (room.enter .waitStart).told (fun _ => rfl) rfl
  | oneLeft =>
      intro i c seated
      have seated : (room.session.evictInvalid.players i) = some c := seated
      simp [waitAgain, seated, GameState.meant]
  | noneLeft pending left => exact .of_nobody (Session.count_zero_iff.mp left)
  | startGame | endTurn | changeTurn => exact .told_all room.told (fun _ => rfl) rfl
  | gameOver pending state shot =>
      obtain ⟨fields, rfl⟩ := Session.registerShot_frame shot
      intro i c seated
      exact (tellResult_last _ i).trans (congrArg some state.symm)
  | endGame => exact .of_nobody fun _ => rfl

end Room

namespace Server

/-- Every player in a session was last told the state the session is in. -/
def Informed (srv : Server) : Prop :=
  ∀ s i c, (srv.sessions s).players i = some c →
    (news (srv.toSendMsg c)).getLast?.map GameState.meant = some (srv.sessions s).state

/-- The event takes nobody away from a session in which somebody stays behind. -/
def NobodyLeftBehind (srv : Server) (e : Event) : Prop :=
  ∀ c s, e = .broken c → srv.gameSessionOf c = some s → (srv.sessions s).getPlayersCount = 1

theorem informed_iff {srv : Server} : srv.Informed ↔ ∀ s, (srv.room s).Informed := by
  refine forall_congr' fun s => forall_congr' fun i => forall_congr' fun c => ?_
  refine imp_congr_right fun seated => ?_
  have seated : (srv.sessions s).players i = some c := seated
  simp [room, seated]

theorem broken_room {srv srv' : Server} (sound : srv.Sound) {s : SessionId} {i : PlayerIdx}
    {c : ClientId} (seated : (srv.sessions s).players i = some c)
    (done : srv.step (.broken c) = .ok srv') : srv'.room s = (srv.room s).leave i := by
  have alive := Option.isSome_iff_ne_none.mpr (sound.seats.alive seated)
  have shows_ := (Shows.start sound (sound.seats.born seated)).left seated
  simp only [step, alive, ↓reduceIte, connBroken_member sound seated, Except.ok.injEq] at done
  exact done ▸ shows_.here

theorem step_informed_iff {srv srv' : Server} {e : Event} (inv : srv.Inv)
    (informed : srv.Informed) (done : srv.step e = .ok srv') :
    srv'.Informed ↔ srv.NobodyLeftBehind e := by
  rw [informed_iff] at informed ⊢
  constructor
  · rintro told c s rfl session
    obtain ⟨i, seated⟩ := inv.sound.seats.member s c (gameSessionOf_eq.mp session)
    have told := told s
    rw [broken_room inv.sound seated done] at told
    exact (Room.leave_informed (inv.good s).agrees (informed s) seated).mp told
  · intro stays s
    obtain ⟨action, caused, step⟩ := ((step_follows inv e).elim done).steps s
    refine step.informed (informed s) fun i leaves => ?_
    subst leaves
    obtain ⟨c, broken, seated⟩ := caused
    exact stays c s broken (gameSessionOf_eq.mpr (inv.sound.seats.seat s i c seated))

theorem init_informed : init.Informed := nofun

end Server

/-- All players are informed in every state of a run exactly if no connection
breaks in it while the other player of the session is there. -/
theorem players_informed_iff {es : List Server.Event} {srv : Server}
    (done : Server.run Server.init es = .ok srv) :
    AllStates Server.step Server.Informed Server.init es ↔
      AllSteps Server.step Server.NobodyLeftBehind Server.init es :=
  allStates_iff_allSteps Server.step (fun _ _ _ inv _ stepped => Server.step_inv inv stepped)
    (fun _ _ _ inv informed stepped => Server.step_informed_iff inv informed stepped)
    Server.init_inv Server.init_informed done

theorem players_informed_iff_opening :
    AllStates Server.step Server.Informed Server.init opening ↔
      AllSteps Server.step Server.NobodyLeftBehind Server.init opening :=
  players_informed_iff (Server.run_after _ (by decide +kernel))

/-- The second of two players leaves during the preparation; the first still
believes that it goes on. -/
def abandoned : List Server.Event :=
  [.accept, .accept, .message 0 ⟨1, .gameSessionReq⟩ 0, .message 1 ⟨1, .gameSessionReq⟩ 0,
    .broken 1]

theorem player_left_uninformed :
    (Server.after abandoned).Reachable ∧ ¬ (Server.after abandoned).Informed := by
  refine ⟨Server.reachable_after (by decide +kernel), fun informed => ?_⟩
  have knows := informed 0 0 0 (by decide +kernel)
  revert knows
  decide +kernel

end Battleship
