import Battleship.ServerSteps

/-! What holds of every session in every state the server reaches: its slots
agree with its state, and a countdown is pending for every phase that only a
countdown ends. -/
namespace Battleship

namespace Server

/-- A handler of the kind is registered for the session and has not elapsed. -/
def Pending (srv : Server) (s : SessionId) (kind : TimeoutKind) : Prop :=
  ∃ handler ∈ srv.timeoutHandlers,
    handler.session = s ∧ handler.kind = kind ∧ handler.elapsed = false

theorem pending_iff {srv : Server} {s : SessionId} {kind : TimeoutKind} :
    srv.Pending s kind ↔ ∃ h, (h, kind) ∈ (srv.room s).pending := by
  constructor
  · rintro ⟨handler, member, owned, same, live⟩
    exact ⟨handler.id, handler, member, rfl, same, owned, live⟩
  · rintro ⟨h, handler, member, _, same, owned, live⟩
    exact ⟨handler, member, owned, same, live⟩

/-- The state a list of events leads to. -/
def after (es : List Event) : Server :=
  match run init es with
  | .ok srv => srv
  | .error _ => init

theorem run_after (es : List Event) (possible : (run init es).isOk = true) :
    run init es = .ok (after es) := by
  unfold after
  cases done : run init es with
  | ok srv => rfl
  | error fault => simp [done, Except.isOk, Except.toBool] at possible

theorem after_eq {es : List Event} {srv : Server} (done : run init es = .ok srv) :
    after es = srv := by
  simp [after, done]

theorem reachable_after {es : List Event} (possible : (run init es).isOk = true) :
    (after es).Reachable :=
  ⟨es, run_after es possible⟩

end Server

/-! A game is opened: two clients connect, ask for a session, send their fields
and wait for the start. -/

def opening : List Server.Event :=
  [.accept, .accept,
    .message 0 ⟨1, .gameSessionReq⟩ 0, .message 1 ⟨1, .gameSessionReq⟩ 0,
    .message 0 ⟨2, .gameField openingField true⟩ 0,
    .message 1 ⟨2, .gameField openingField true⟩ 0,
    .timer 0 71 0 71 [], .timer 1 3 0 74 [], .timer 2 3 0 77 [0]]

theorem opening_reachable : (Server.after opening).Reachable :=
  Server.reachable_after (by decide +kernel)

/-- The number of players in a session is the one its state stands for, whatever
has happened, and so no event ever follows an empty slot. -/
theorem slots_agree_with_state {srv : Server} (reachable : srv.Reachable) (s : SessionId) :
    ((srv.sessions s).getPlayersCount = 0 ↔ (srv.sessions s).state = .noVacantGame) ∧
      ((srv.sessions s).getPlayersCount = 1 ↔ (srv.sessions s).state = .waitPlayer) ∧
      ((srv.sessions s).getPlayersCount = 2 ↔ (srv.sessions s).state ≠ .noVacantGame ∧
        (srv.sessions s).state ≠ .waitPlayer) ∧
      ∀ e, srv.step e ≠ .error .nullSlot := by
  have inv := reachable.inv
  obtain ⟨none, one, two⟩ := (inv.good s).agrees
  refine ⟨none, one, two, fun e stopped => ?_⟩
  rcases (Server.step_follows inv e).fault stopped with exhausted | absent
  · cases exhausted
  · cases absent

theorem slots_agree_with_state_opening :
    (Server.after opening).Reachable ∧
      (((Server.after opening).sessions 0).getPlayersCount = 2 ↔
        ((Server.after opening).sessions 0).state ≠ .noVacantGame ∧
          ((Server.after opening).sessions 0).state ≠ .waitPlayer) ∧
      ((Server.after opening).sessions 0).state = .gameTurn :=
  ⟨opening_reachable, (slots_agree_with_state opening_reachable 0).2.2.1, by decide +kernel⟩

/-- A session is never stuck: the countdown that ends its phase is pending. -/
theorem phase_has_countdown {srv : Server} (reachable : srv.Reachable) (s : SessionId) :
    ((srv.sessions s).state = .preparation → srv.Pending s .preparation) ∧
      ((srv.sessions s).state = .waitStart →
        srv.Pending s .checkStartFields ∨ srv.Pending s .gameStart) ∧
      ((srv.sessions s).state = .gameTurn → srv.Pending s .gameTurn) ∧
      ((srv.sessions s).state = .processTurn →
        srv.Pending s .changeTurn ∨ srv.Pending s .endGame) ∧
      (srv.sessions s).state ≠ .waitPreparation := by
  have good := reachable.inv.good s
  have ends (timed : (srv.sessions s).Timed) :
      ∃ kind, srv.Pending s kind ∧ (srv.sessions s).EndedBy kind := by
    obtain ⟨h, kind, member, ended, _⟩ := good.running timed
    exact ⟨kind, Server.pending_iff.mpr ⟨h, member⟩, ended⟩
  refine ⟨fun state => ?_, fun state => ?_, fun state => ?_, fun state => ?_, good.ready⟩
  · obtain ⟨kind, pending, ended⟩ := ends ⟨.preparation, state⟩
    cases kind <;> simp_all [Session.EndedBy]
  · obtain ⟨kind, pending, ended⟩ := ends ⟨.gameStart, state⟩
    cases kind <;> simp_all [Session.EndedBy]
  · obtain ⟨kind, pending, ended⟩ := ends ⟨.gameTurn, state⟩
    cases kind <;> simp_all [Session.EndedBy]
  · obtain ⟨kind, pending, ended⟩ := ends ⟨.changeTurn, state⟩
    cases kind <;> simp_all [Session.EndedBy]

theorem phase_has_countdown_opening :
    ((Server.after opening).sessions 0).state = .gameTurn ∧
      (Server.after opening).Pending 0 .gameTurn := by
  have state : ((Server.after opening).sessions 0).state = .gameTurn := by decide +kernel
  exact ⟨state, (phase_has_countdown opening_reachable 0).2.2.1 state⟩

end Battleship
