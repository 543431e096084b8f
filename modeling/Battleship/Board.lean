import Battleship.PlayerActs

/-! What the messages to a player determine of his screen, whatever keys he presses: the
mode, and the two fields as they were last sent since his last preparation began. -/
namespace Battleship

/-- `shown` says whether the cursor is to be seen unless a shot has hidden it. A field is
`none` if no such field was sent since the preparation began. -/
structure Board where
  mode : InterfaceMode
  shown : Bool
  own : Option GameField
  enemy : Option GameField

namespace Board

def init : Board := ⟨.idle, false, none, none⟩

def hear (board : Board) : Body → Board
  | .startFieldReq _ => ⟨.preparation, true, none, none⟩
  | .stopPreparation =>
      if board.mode = .preparation then { board with mode := .wait, shown := false } else board
  | .startTurn _ true => { board with mode := .ownTurn, shown := true }
  | .startTurn _ false => { board with mode := .enemyTurn, shown := false }
  | .stopTurn true => { board with mode := .wait, shown := false }
  | .stopTurn false => { board with mode := .wait }
  | .gameField field true =>
      -- While he prepares, the player may change the field again.
      { board with own := if board.mode = .preparation then none else some field }
  | .gameField field false => { board with enemy := some field }
  | _ => board

theorem hear_ownField (board : Board) (field : GameField) :
    board.hear (.gameField field true) =
      { board with own := if board.mode = .preparation then none else some field } := rfl

theorem hear_enemyField (board : Board) (field : GameField) :
    board.hear (.gameField field false) = { board with enemy := some field } := rfl

@[simp] theorem hear_stopTurn_own (board : Board) (isOwn : Bool) :
    (board.hear (.stopTurn isOwn)).own = board.own := by cases isOwn <;> rfl

@[simp] theorem hear_stopTurn_enemy (board : Board) (isOwn : Bool) :
    (board.hear (.stopTurn isOwn)).enemy = board.enemy := by cases isOwn <;> rfl

theorem hear_stopPreparation (board : Board) :
    board.hear .stopPreparation = if board.mode = .preparation then
      { board with mode := .wait, shown := false } else board := rfl

def after (bodies : List Body) : Board := bodies.foldl hear init

@[simp] theorem after_snoc (bodies : List Body) (body : Body) :
    after (bodies ++ [body]) = (after bodies).hear body := by
  simp only [after, List.foldl_append, List.foldl_cons, List.foldl_nil]

theorem after_append (bodies bodies' : List Body) :
    after (bodies ++ bodies') = bodies'.foldl hear (after bodies) := List.foldl_append

def silent : Body → Bool
  | .gameField _ _ | .startFieldReq _ | .stopPreparation | .startTurn _ _ | .stopTurn _ => false
  | _ => true

/-- What is not silent. -/
def loud (bodies : List Body) : List Body := bodies.filter fun body => !silent body

@[simp] theorem loud_append (bodies bodies' : List Body) :
    loud (bodies ++ bodies') = loud bodies ++ loud bodies' := List.filter_append ..

theorem hear_silent (board : Board) {body : Body} (quiet : silent body = true) :
    board.hear body = board := by
  cases body with
  | gameField | startFieldReq | stopPreparation | startTurn | stopTurn => cases quiet
  | _ => rfl

theorem foldl_loud (board : Board) (bodies : List Body) :
    (loud bodies).foldl hear board = bodies.foldl hear board := by
  induction bodies generalizing board with
  | nil => rfl
  | cons body bodies ih =>
      by_cases quiet : silent body = true
      · rw [loud, List.filter_cons_of_neg (by simpa using quiet), List.foldl_cons,
          hear_silent board quiet]
        exact ih board
      · rw [loud, List.filter_cons_of_pos (by simpa using quiet), List.foldl_cons, List.foldl_cons]
        exact ih _

@[simp] theorem after_loud (bodies : List Body) : after (loud bodies) = after bodies :=
  foldl_loud init bodies

def Prepares (board : Board) : Prop := board.mode = .preparation → board.own = none

theorem hear_prepares {board : Board} (prepares : board.Prepares) (body : Body) :
    (board.hear body).Prepares := by
  cases body with
  | startFieldReq => exact fun _ => rfl
  | stopPreparation =>
      rw [hear_stopPreparation]
      split_ifs
      · intro mode
        cases mode
      · exact prepares
  | startTurn endTime isOwn =>
      cases isOwn <;> (intro mode; cases mode)
  | stopTurn isOwn => cases isOwn <;> (intro mode; cases mode)
  | gameField field isOwnField =>
      cases isOwnField with
      | true => exact fun mode => if_pos mode
      | false => exact prepares
  | _ => exact prepares

theorem after_prepares (bodies : List Body) : (after bodies).Prepares := by
  induction bodies using List.reverseRecOn with
  | nil => exact fun _ => rfl
  | append_singleton bodies body ih =>
      rw [after_snoc]
      exact hear_prepares ih body

end Board

namespace NcursesInterface

/-- The screen shows what the board says. Once a shot is fired the own turn is over on the
screen, before the server says so, and the cursor is gone. -/
structure Reflects (ui : NcursesInterface) (board : Board) : Prop where
  mode : ui.mode = board.mode ∨
    board.mode = .ownTurn ∧ ui.mode = .wait ∧ ui.cursorShown = false
  hidden : ui.cursorShown = true → board.shown = true
  seen : ui.mode = .preparation ∨ ui.mode = .ownTurn → ui.cursorShown = true
  own : ∀ field, board.own = some field → ui.ownField = field
  enemy : ∀ field, board.enemy = some field → ui.enemyField = field

variable {ui : NcursesInterface} {board : Board}

theorem init_reflects : init.Reflects Board.init := by
  constructor
  · exact .inl rfl
  · intro shown
    cases shown
  · rintro (mode | mode) <;> cases mode
  · intro field shown
    cases shown
  · intro field shown
    cases shown

theorem Reflects.preparing (reflects : ui.Reflects board) :
    ui.mode = .preparation ↔ board.mode = .preparation := by
  constructor
  · intro mode
    rcases reflects.mode with same | ⟨_, wait, _⟩
    · exact same.symm.trans mode
    · cases wait.symm.trans mode
  · intro mode
    rcases reflects.mode with same | ⟨own, _, _⟩
    · exact same.trans mode
    · cases own.symm.trans mode

theorem Reflects.of_eq {ui' : NcursesInterface} (reflects : ui.Reflects board)
    (mode : ui'.mode = ui.mode) (shown : ui'.cursorShown = ui.cursorShown)
    (own : ui'.ownField = ui.ownField) (enemy : ui'.enemyField = ui.enemyField) :
    ui'.Reflects board := by
  obtain ⟨modes, hidden, seen, ownShown, enemyShown⟩ := reflects
  exact ⟨by rwa [mode, shown], by rwa [shown], by rwa [mode, shown], by rwa [own], by rwa [enemy]⟩

end NcursesInterface

namespace BattleshipGame

open NcursesInterface

variable {board : Board}

theorem Pressed.reflects {game game' : BattleshipGame} (pressed : game.Pressed game')
    (reflects : game.interface.Reflects board) (prepares : board.Prepares) :
    game'.interface.Reflects board := by
  cases pressed with
  | idle | asked => exact reflects
  | moved => exact reflects.of_eq rfl rfl rfl rfl
  | edited mode inside =>
      -- The player edits only while he prepares, and then no own field is on the board.
      have none := prepares (reflects.preparing.mp mode)
      obtain ⟨modes, hidden, seen, _, enemy⟩ := reflects
      refine ⟨modes, hidden, seen, fun field shown => ?_, enemy⟩
      cases none.symm.trans shown
  | shot mode empty =>
      obtain ⟨modes, hidden, seen, own, enemy⟩ := reflects
      have turn : board.mode = .ownTurn := by
        rcases modes with same | ⟨turn, _, _⟩
        · exact same.symm.trans mode
        · exact turn
      refine ⟨.inr ⟨turn, rfl, rfl⟩, ?_, ?_, own, enemy⟩
      · intro shown
        cases shown
      · rintro (other | other) <;> cases other

theorem processMsg_reflects {game : BattleshipGame} (reflects : game.interface.Reflects board)
    (msg : Message) (read : Readings) :
    (game.processMsg msg read).interface.Reflects (board.hear msg.body) := by
  obtain ⟨modes, hidden, seen, own, enemy⟩ := id reflects
  unfold processMsg
  cases msg.body with
  | gameField field isOwnField =>
      cases isOwnField with
      | true =>
          refine ⟨modes, hidden, seen, fun field' shown => ?_, enemy⟩
          rw [Board.hear_ownField] at shown
          dsimp only at shown
          split_ifs at shown
          exact Option.some.inj shown
      | false =>
          refine ⟨modes, hidden, seen, own, fun field' shown => ?_⟩
          exact Option.some.inj shown
  | startFieldReq endTime =>
      refine ⟨.inl rfl, fun _ => rfl, fun _ => rfl, ?_, ?_⟩
      · intro field shown
        cases shown
      · intro field shown
        cases shown
  | stopPreparation =>
      dsimp only [processStopPreparationMsg, put]
      rw [stopPreparationMode, Board.hear_stopPreparation]
      by_cases mode : board.mode = .preparation
      · rw [if_neg (not_not.mpr (reflects.preparing.mpr mode)), if_pos mode]
        refine ⟨.inl rfl, ?_, ?_, own, enemy⟩
        · intro shown
          cases shown
        · rintro (other | other) <;> cases other
      · rw [if_pos (reflects.preparing.not.mpr mode), if_neg mode]
        exact reflects.of_eq rfl rfl rfl rfl
  | startTurn endTime isOwn =>
      cases isOwn with
      | true => exact ⟨.inl rfl, fun _ => rfl, fun _ => rfl, own, enemy⟩
      | false =>
          refine ⟨.inl rfl, ?_, ?_, own, enemy⟩
          · intro shown
            cases shown
          · rintro (other | other) <;> cases other
  | stopTurn isOwn =>
      cases isOwn with
      | true =>
          refine ⟨.inl rfl, ?_, ?_, own, enemy⟩
          · intro shown
            cases shown
          · rintro (other | other) <;> cases other
      | false =>
          refine ⟨.inl rfl, hidden, ?_, own, enemy⟩
          rintro (other | other) <;> cases other
  | gameState | serverConnStatus => exact reflects.of_eq rfl rfl rfl rfl
  | _ => exact reflects

end BattleshipGame

/-- The message among two acts. -/
def Act.body : Act → Option Body
  | .key _ => none
  | .message msg _ => some msg.body

/-- The messages that have come. -/
def heard (as : List Act) : List Body := as.filterMap Act.body

/-- Whatever keys are pressed in between, the screen shows what the messages say. -/
theorem acts_reflect (clientFd : Nat) (as : List Act) :
    ((BattleshipGame.init clientFd).acts as).interface.Reflects (Board.after (heard as)) := by
  induction as using List.reverseRecOn with
  | nil => exact NcursesInterface.init_reflects
  | append_singleton as a ih =>
      rw [BattleshipGame.acts_snoc, heard, List.filterMap_append, ← heard]
      cases a with
      | key key =>
          have none : [Act.key key].filterMap Act.body = [] := rfl
          rw [none, List.append_nil]
          exact (BattleshipGame.pressed _ key).reflects ih (Board.after_prepares _)
      | message msg read =>
          have one : [Act.message msg read].filterMap Act.body = [msg.body] := rfl
          rw [one, Board.after_snoc]
          exact BattleshipGame.processMsg_reflects ih msg read

end Battleship
