import Battleship.Script
import Battleship.EnemyView
import Battleship.SessionShots
import Battleship.StartFields

/-! What the two players know of their session from what they were sent: its phase, whose
turn it is and how the fields stand. No whole ship of the other player is ever sent. -/
namespace Battleship

open Runs

namespace Session

/-- What a player's screen should say in a phase of his session. -/
def modeFor (session : Session) (i : PlayerIdx) : Option InterfaceMode :=
  match session.state with
  | .preparation => some .preparation
  | .waitStart => some .wait
  | .gameTurn => some (if i = session.curTurnPlayerIdx then .ownTurn else .enemyTurn)
  | .processTurn => some .wait
  | _ => none

/-- The player may move his cursor. -/
def acting (mode : InterfaceMode) : Bool := decide (mode = .preparation ∨ mode = .ownTurn)

/-- What the board of the player in slot `i` says of the session. Before the first turn the
fields that were sent are start fields, and they may be replaced once more. -/
structure Knows (session : Session) (i : PlayerIdx) (board : Board) : Prop where
  phase : ∀ mode, session.modeFor i = some mode → board.mode = mode ∧ board.shown = acting mode
  blank : session.state = .preparation → board.own = none ∧ board.enemy = none
  fresh : session.state = .waitStart →
    (∀ field, board.own = some field →
      field.isValidStartField = true ∧ (session.fields i).isValidStartField = true) ∧
      ∀ field, board.enemy = some field →
        field = GameField.new ∧ (session.fields (getEnemyIdx i)).isValidStartField = true
  owned : session.Playing → ∀ field, board.own = some field → field = session.fields i ∨
    field.isValidStartField = true ∧ (session.fields i).isValidStartField = true
  seen : session.Playing → ∀ field, board.enemy = some field →
    field = (session.fields (getEnemyIdx i)).getForEnemy

theorem getForEnemy_valid {f : GameField} (valid : f.isValidStartField = true) :
    f.getForEnemy = GameField.new := by
  refine GameField.ext fun y x => ?_
  rcases GameField.isValidStartField_cells valid y x with empty | whole
  · simp [GameField.getForEnemy, GameField.new, CellState.toCell, empty]
  · simp [GameField.getForEnemy, GameField.new, CellState.toCell, whole]

theorem registerShot_own {session shot : Session} {draws : List Nat} {shotRes : CellState}
    (registered : session.registerShot draws = some (shotRes, shot)) :
    shot.fields session.curTurnPlayerIdx = session.fields session.curTurnPlayerIdx := by
  obtain ⟨point, field, untried, accepted, rfl, _⟩ := registerShot_spec registered
  refine Function.update_of_ne ?_ _ _
  unfold enemyIdx
  generalize session.curTurnPlayerIdx = own
  fin_cases own <;> decide

theorem getEnemyIdx_getEnemyIdx (i : PlayerIdx) : getEnemyIdx (getEnemyIdx i) = i := by
  fin_cases i <;> rfl

theorem eq_getEnemyIdx {i j : PlayerIdx} (other : i ≠ j) : i = getEnemyIdx j := by
  fin_cases i <;> fin_cases j <;> simp_all [getEnemyIdx]

end Session

namespace Session

variable {session session' : Session} {i : PlayerIdx} {board : Board}

theorem Knows.of_waits (state : session.state = .waitPlayer ∨ session.state = .noVacantGame) :
    session.Knows i board := by
  have none : session.modeFor i = none := by
    rcases state with waits | closed
    · rw [modeFor, waits]
    · rw [modeFor, closed]
  constructor
  · intro mode some
    cases none.symm.trans some
  · intro other
    rcases state with waits | closed
    · cases waits.symm.trans other
    · cases closed.symm.trans other
  · intro other
    rcases state with waits | closed
    · cases waits.symm.trans other
    · cases closed.symm.trans other
  all_goals
    intro playing
    unfold Playing at playing
    rcases state with waits | closed <;> simp_all

theorem Knows.of_alike (knows : session.Knows i board) (alike : session.Alike session') :
    session'.Knows i board := by
  obtain ⟨players, fields, state, turn⟩ := alike
  have mode : session'.modeFor i = session.modeFor i := by rw [modeFor, modeFor, state, turn]
  obtain ⟨phase, blank, fresh, owned, seen⟩ := knows
  constructor
  · rwa [mode]
  · rwa [state]
  · rwa [state, fields]
  · rwa [Playing, state, fields]
  · rwa [Playing, state, fields]

theorem Knows.shot {shot : Session} {draws : List Nat} {shotRes : CellState}
    (knows : session.Knows i board) (state : session.state = .processTurn)
    (registered : session.registerShot draws = some (shotRes, shot)) :
    shot.Knows i (board.hear (Server.shotFieldFor shot i)) := by
  obtain ⟨fields, frame⟩ := registerShot_frame registered
  have own := registerShot_own registered
  have turn : shot.curTurnPlayerIdx = session.curTurnPlayerIdx := by rw [frame]
  have processing : shot.state = .processTurn := by rw [frame]; exact state
  have playing : session.Playing := .inr state
  have wait : session.modeFor i = some .wait := by rw [modeFor, state]
  obtain ⟨mode, hidden⟩ := knows.phase .wait wait
  have mode' : (board.hear (Server.shotFieldFor shot i)).mode = .wait ∧
      (board.hear (Server.shotFieldFor shot i)).shown = acting .wait := by
    unfold Server.shotFieldFor
    split_ifs <;> exact ⟨mode, hidden⟩
  have other (state' : GameState) (different : state' ≠ .processTurn) : shot.state ≠ state' :=
    fun same => different (same.symm.trans processing)
  constructor
  · intro mode'' phase
    rw [modeFor, processing] at phase
    cases phase
    exact mode'
  · exact fun early => absurd early (other _ (by decide))
  · exact fun early => absurd early (other _ (by decide))
  · intro _ field shown
    by_cases shooter : i = session.curTurnPlayerIdx
    · rw [Server.shotFieldFor, if_pos (shooter.trans turn.symm)] at shown
      subst shooter
      rw [own]
      exact knows.owned playing field shown
    · rw [Server.shotFieldFor, if_neg (by rwa [turn])] at shown
      rw [Board.hear_ownField] at shown
      simp only [mode, reduceCtorEq, ↓reduceIte, Option.some.injEq] at shown
      rw [← shown, enemyIdx, turn, ← eq_getEnemyIdx shooter]
      exact .inl rfl
  · intro _ field shown
    by_cases shooter : i = session.curTurnPlayerIdx
    · rw [Server.shotFieldFor, if_pos (shooter.trans turn.symm)] at shown
      rw [shooter, ← turn]
      exact (Option.some.inj shown).symm
    · rw [Server.shotFieldFor, if_neg (by rwa [turn])] at shown
      have before := knows.seen playing field shown
      have target : getEnemyIdx i = session.curTurnPlayerIdx := by
        rw [eq_getEnemyIdx shooter, getEnemyIdx_getEnemyIdx]
      rw [before, target, own]

theorem Knows.startTurn {first : PlayerIdx} (endTime : Int64) (timeout : Option HandlerId)
    (owned : ∀ field, board.own = some field → field = session.fields i ∨
      field.isValidStartField = true ∧ (session.fields i).isValidStartField = true)
    (seen : ∀ field, board.enemy = some field →
      field = (session.fields (getEnemyIdx i)).getForEnemy) :
    Knows { session with
        state := .gameTurn, curTurnPlayerIdx := first, turnTimeout := timeout } i
      (board.hear (.startTurn endTime (decide (i = first)))) := by
  by_cases own : i = first
  · rw [decide_eq_true own]
    refine ⟨fun mode phase => ?_, nofun, nofun, fun _ => owned, fun _ => seen⟩
    rw [modeFor] at phase
    simp only [own, ↓reduceIte, Option.some.injEq] at phase
    rw [← phase]
    exact ⟨rfl, rfl⟩
  · rw [decide_eq_false own]
    refine ⟨fun mode phase => ?_, nofun, nofun, fun _ => owned, fun _ => seen⟩
    rw [modeFor] at phase
    simp only [own, ↓reduceIte, Option.some.injEq] at phase
    rw [← phase]
    exact ⟨rfl, rfl⟩

theorem Knows.submit {j : PlayerIdx} {field : GameField} (knows : session.Knows i board)
    (phase : session.state = .preparation ∨ session.state = .waitStart)
    (valid : field.isValidStartField = true) :
    Knows { session with fields := Function.update session.fields j field } i board := by
  have early : ¬ session.Playing := by
    rcases phase with state | state <;> simp [Playing, state]
  have accepted (k : PlayerIdx) (before : (session.fields k).isValidStartField = true) :
      (Function.update session.fields j field k).isValidStartField = true := by
    by_cases same : k = j
    · rw [same, Function.update_self]
      exact valid
    · rwa [Function.update_of_ne same]
  obtain ⟨mode, blank, fresh, _, _⟩ := knows
  refine ⟨mode, blank, fun state => ?_, fun playing => absurd playing early,
    fun playing => absurd playing early⟩
  obtain ⟨own, enemy⟩ := fresh state
  constructor
  · intro shown is
    exact ⟨(own shown is).1, accepted i (own shown is).2⟩
  · intro shown is
    exact ⟨(enemy shown is).1, accepted _ (enemy shown is).2⟩

theorem Knows.stopPreparation (knows : session.Knows i board)
    (state : session.state = .preparation) :
    Knows { session with state := .waitStart } i (board.hear .stopPreparation) := by
  have preparing : session.modeFor i = some .preparation := by rw [modeFor, state]
  obtain ⟨mode, _⟩ := knows.phase _ preparing
  obtain ⟨own, enemy⟩ := knows.blank state
  have heard : board.hear .stopPreparation = { board with mode := .wait, shown := false } :=
    if_pos mode
  rw [heard]
  refine ⟨fun mode' phase => ?_, nofun, fun _ => ⟨?_, ?_⟩, ?_, ?_⟩
  · rw [modeFor] at phase
    rw [← Option.some.inj phase]
    exact ⟨rfl, rfl⟩
  · intro field shown
    cases own.symm.trans shown
  · intro field shown
    cases enemy.symm.trans shown
  · rintro (turn | turn) <;> cases turn
  · rintro (turn | turn) <;> cases turn

theorem Knows.startFields (knows : session.Knows i board) (state : session.state = .waitStart)
    (valid : ∀ j, (session.fields j).isValidStartField = true) :
    session.Knows i ((Server.startFieldsFor session i).foldl Board.hear board) := by
  have waits : session.modeFor i = some .wait := by rw [modeFor, state]
  obtain ⟨mode, hidden⟩ := knows.phase _ waits
  have heard : (Server.startFieldsFor session i).foldl Board.hear board =
      { board with
        own := some (session.fields i)
        enemy := some (session.fields (getEnemyIdx i)).getForEnemy } := by
    simp [Server.startFieldsFor, Board.hear_ownField, Board.hear_enemyField, mode]
  rw [heard]
  refine ⟨fun mode' phase => ?_, fun early => ?_, fun _ => ⟨?_, ?_⟩, ?_, ?_⟩
  · rw [waits] at phase
    rw [← Option.some.inj phase]
    exact ⟨mode, hidden⟩
  · cases state.symm.trans early
  · intro field shown
    obtain rfl := Option.some.inj shown
    exact ⟨valid i, valid i⟩
  · intro field shown
    obtain rfl := Option.some.inj shown
    exact ⟨getForEnemy_valid (valid _), valid _⟩
  · rintro (turn | turn) <;> cases state.symm.trans turn
  · rintro (turn | turn) <;> cases state.symm.trans turn

theorem Knows.endTurn (knows : session.Knows i board) (shot : Point) (timeout : Option HandlerId)
    (state : session.state = .gameTurn) :
    Knows { session with state := .processTurn, lastShot := shot, turnTimeout := timeout } i
      (board.hear (.stopTurn (decide (i = session.curTurnPlayerIdx)))) := by
  have playing : session.Playing := .inl state
  have turn : session.modeFor i =
      some (if i = session.curTurnPlayerIdx then .ownTurn else .enemyTurn) := by
    rw [modeFor, state]
  obtain ⟨mode, hidden⟩ := knows.phase _ turn
  refine ⟨fun mode' phase => ?_, nofun, nofun, fun _ => ?_, fun _ => ?_⟩
  · rw [modeFor] at phase
    rw [← Option.some.inj phase]
    by_cases own : i = session.curTurnPlayerIdx
    · rw [decide_eq_true own]
      exact ⟨rfl, rfl⟩
    · rw [if_neg own] at hidden
      rw [decide_eq_false own]
      exact ⟨rfl, hidden⟩
  · rw [Board.hear_stopTurn_own]
    exact knows.owned playing
  · rw [Board.hear_stopTurn_enemy]
    exact knows.seen playing

end Session

/-- What holds of a player's board when he takes his seat or while he keeps it. -/
theorem Script.knows {session session' : Session} {bodies : PlayerIdx → List Body}
    (script : Script session session' bodies) {i : PlayerIdx} {board : Board}
    (knows : session.players i = session'.players i → session.Knows i board) :
    session'.Knows i ((bodies i).foldl Board.hear board) := by
  cases script with
  | quiet alike => exact (knows (congrFun alike.players i).symm).of_alike alike
  | waits state => exact .of_waits state
  | submit phase valid => exact (knows rfl).submit phase valid
  | prepare endTime state =>
      have early : ¬ session'.Playing := by simp [Session.Playing, state]
      refine ⟨fun mode phase => ?_, fun _ => ⟨rfl, rfl⟩, fun waits => ?_, ?_, ?_⟩
      · rw [Session.modeFor, state] at phase
        rw [← Option.some.inj phase]
        exact ⟨rfl, rfl⟩
      · cases state.symm.trans waits
      · exact fun playing => absurd playing early
      · exact fun playing => absurd playing early
  | stopPreparation state => exact (knows rfl).stopPreparation state
  | startFields state valid => exact (knows rfl).startFields state valid
  | startGame endTime first timeout state =>
      obtain ⟨own, enemy⟩ := (knows rfl).fresh state
      refine Session.Knows.startTurn endTime timeout (fun field shown => ?_) fun field shown => ?_
      · exact .inr (own field shown)
      · obtain ⟨new, valid⟩ := enemy field shown
        rw [new, Session.getForEnemy_valid valid]
  | endTurn shot timeout state => exact (knows rfl).endTurn shot timeout state
  | gameOver state registered =>
      obtain ⟨fields, frame⟩ := Session.registerShot_frame registered
      exact (knows (by rw [frame])).shot state registered
  | @changeTurn shot draws shotRes endTime timeout state registered =>
      obtain ⟨fields, frame⟩ := Session.registerShot_frame registered
      have after := (knows (by simp [frame])).shot state registered
      have playing : shot.Playing := .inr (by rw [frame]; exact state)
      rw [List.foldl_cons, List.foldl_cons, List.foldl_nil]
      have next (first : PlayerIdx) : Session.Knows { shot with
          state := .gameTurn, curTurnPlayerIdx := first, turnTimeout := timeout } i
          (Board.hear _ (.startTurn endTime (decide (i = first)))) :=
        .startTurn endTime timeout (after.owned playing) (after.seen playing)
      refine (next _).of_alike ⟨?_, ?_, rfl, rfl⟩
      · exact Session.nextTurn_players shot shotRes
      · exact Session.nextTurn_fields shot shotRes

namespace Server

/-- Everyone who has a seat knows his session from what he was sent, whatever board he
brought with him. -/
def Knowing (srv : Server) : Prop :=
  ∀ s i c board, (srv.sessions s).players i = some c →
    (srv.sessions s).Knows i ((srv.sent c).foldl Board.hear board)

theorem Scripted.knowing {srv srv' : Server} (scripted : Scripted srv srv')
    (knowing : srv.Knowing) : srv'.Knowing := by
  intro s i c board seated
  obtain ⟨bodies, script, told⟩ := scripted.sessions s
  rw [told i c seated, List.foldl_append]
  exact script.knows fun stayed => knowing s i c board (stayed.trans seated)

theorem init_knowing : init.Knowing := by
  intro s i c board seated
  cases seated

def Hides (body : Body) : Prop :=
  ∀ field, body.enemyField = some field → ∀ y x, field.field y x ≠ CellState.unharmed.toCell

theorem hides_getForEnemy (f : GameField) : Hides (.gameField f.getForEnemy false) := by
  intro field shown
  obtain rfl := Option.some.inj shown
  exact GameField.getForEnemy_hides f

theorem hides_of_none {body : Body} (none : body.enemyField = none) : Hides body := by
  intro field shown
  cases none.symm.trans shown

theorem shotFieldFor_hides (shot : Session) (i : PlayerIdx) : Hides (shotFieldFor shot i) := by
  unfold shotFieldFor
  split_ifs
  · exact hides_getForEnemy _
  · exact hides_of_none rfl

theorem Script.hides {session session' : Session} {bodies : PlayerIdx → List Body}
    (script : Script session session' bodies) (i : PlayerIdx) : ∀ body ∈ bodies i, Hides body := by
  cases script with
  | quiet | submit | waits => exact fun _ member => absurd member List.not_mem_nil
  | prepare | stopPreparation | startGame | endTurn =>
      exact List.forall_mem_singleton.mpr (hides_of_none rfl)
  | startFields =>
      refine List.forall_mem_cons.mpr ⟨hides_of_none rfl, List.forall_mem_singleton.mpr ?_⟩
      exact hides_getForEnemy _
  | gameOver => exact List.forall_mem_singleton.mpr (shotFieldFor_hides _ i)
  | changeTurn =>
      refine List.forall_mem_cons.mpr ⟨shotFieldFor_hides _ i, ?_⟩
      exact List.forall_mem_singleton.mpr (hides_of_none rfl)

def Secret (srv : Server) : Prop := ∀ c, ∀ body ∈ srv.sent c, Hides body

theorem Scripted.secret {srv srv' : Server} (scripted : Scripted srv srv') (secret : srv.Secret) :
    srv'.Secret := by
  intro c
  by_cases seated : ∃ s i, (srv'.sessions s).players i = some c
  · obtain ⟨s, i, seated⟩ := seated
    obtain ⟨bodies, script, told⟩ := scripted.sessions s
    rw [told i c seated]
    exact List.forall_mem_append.mpr ⟨secret c, Script.hides script i⟩
  · rcases scripted.absent c (fun s i there => seated ⟨s, i, there⟩) with lost | kept
    · rw [lost]
      exact fun _ member => absurd member List.not_mem_nil
    · rw [kept]
      exact secret c

structure Tidings (srv : Server) : Prop where
  inv : srv.Inv
  knowing : srv.Knowing
  secret : srv.Secret

theorem step_tidings {srv srv' : Server} {e : Event} (tidings : srv.Tidings)
    (done : srv.step e = .ok srv') : srv'.Tidings := by
  have scripted := (step_scripted tidings.inv e).elim done
  constructor
  · exact step_inv tidings.inv done
  · exact scripted.knowing tidings.knowing
  · exact scripted.secret tidings.secret

theorem Reachable.tidings {srv : Server} (reachable : srv.Reachable) : srv.Tidings := by
  obtain ⟨es, done⟩ := reachable
  refine run_invariant step (fun _ _ _ tidings stepped => step_tidings tidings stepped) ?_ done
  exact ⟨init_inv, init_knowing, fun _ _ member => absurd member List.not_mem_nil⟩

end Server
end Battleship
