import Battleship.BattleshipGame
import Battleship.EnemyView

/-! Keys and messages in any order, as the interface process takes them: where its cursor
and its shots lie, how many moves it sends and what of its screen the messages alone
determine. -/
namespace Battleship

open Wraparound

/-- A key of the player, or a message from the client process. -/
inductive Act where
  | key (key : Key)
  | message (msg : Message) (read : Readings)

namespace BattleshipGame

def act (game : BattleshipGame) : Act → BattleshipGame
  | .key key => game.processKey key
  | .message msg read => game.processMsg msg read

def acts (game : BattleshipGame) (as : List Act) : BattleshipGame := as.foldl act game

@[simp] theorem acts_nil (game : BattleshipGame) : game.acts [] = game := rfl

@[simp] theorem acts_snoc (game : BattleshipGame) (as : List Act) (a : Act) :
    game.acts (as ++ [a]) = (game.acts as).act a := by
  simp only [acts, List.foldl_append, List.foldl_cons, List.foldl_nil]

theorem acts_append (game : BattleshipGame) (as as' : List Act) :
    game.acts (as ++ as') = (game.acts as).acts as' := by
  simp only [acts, List.foldl_append]

inductive Pressed (game : BattleshipGame) : BattleshipGame → Prop where
  | idle : Pressed game game
  | moved (offset : Point) (columns : -1 ≤ offset.x ∧ offset.x ≤ 1)
      (rows : -1 ≤ offset.y ∧ offset.y ≤ 1) :
      Pressed game { game with interface :=
        { game.interface with cursor := game.interface.cursor.move offset } }
  | edited (mode : game.interface.mode = .preparation)
      (inside : Inside game.interface.cursor.getRelatedPos) :
      Pressed game { game with interface := { game.interface with
        lastShot := game.interface.cursor.getRelatedPos
        ownField := NcursesInterface.toggled game.interface.ownField
          game.interface.cursor.getRelatedPos } }
  | shot (mode : game.interface.mode = .ownTurn)
      (empty : game.interface.enemyField.getState game.interface.cursor.getRelatedPos = .empty) :
      Pressed game ({ game with interface :=
        (game.interface.setLastShot game.interface.cursor.getRelatedPos).stopOwnTurnMode }.put
          (moveBody game.interface.cursor.getRelatedPos))
  | asked (body : Body) (request : body = .gameSessionReq ∨ body = .serverConnReq) :
      Pressed game (game.put body)

theorem pressed_move (game : BattleshipGame) {key : Key} {offset : Point}
    (arrow : ∀ ui : NcursesInterface, ui.processInput key = ui.processMoveInput offset)
    (columns : -1 ≤ offset.x ∧ offset.x ≤ 1) (rows : -1 ≤ offset.y ∧ offset.y ≤ 1) :
    game.Pressed (game.processKey key) := by
  unfold processKey
  simp only [arrow, NcursesInterface.processMoveInput]
  split_ifs
  · exact .idle
  · exact .moved offset columns rows

theorem pressed (game : BattleshipGame) (key : Key) : game.Pressed (game.processKey key) := by
  cases key with
  | up => exact pressed_move game (fun _ => rfl) (by decide) (by decide)
  | down => exact pressed_move game (fun _ => rfl) (by decide) (by decide)
  | left => exact pressed_move game (fun _ => rfl) (by decide) (by decide)
  | right => exact pressed_move game (fun _ => rfl) (by decide) (by decide)
  | s => exact .asked _ (.inl rfl)
  | c => exact .asked _ (.inr rfl)
  | q | other | err => exact .idle
  | space =>
      unfold processKey
      simp only [NcursesInterface.processInput, NcursesInterface.processEnterInput]
      split_ifs with preparing outside turn taken
      · exact .idle
      · exact .edited preparing (GameField.contains_iff.mp (by simpa using outside))
      · exact .idle
      · exact .shot turn (not_not.mp taken)
      · exact .idle

end BattleshipGame

namespace NcursesInterface

def Over (ui : NcursesInterface) : Prop :=
  (ui.mode = .preparation → ui.cursor.min = ownFieldStart) ∧
    (ui.mode = .ownTurn → ui.cursor.min = enemyFieldStart)

/-- What every key and every message keeps. -/
structure Steady (ui : NcursesInterface) : Prop where
  placed : ui.cursor.Placed
  box : ui.cursor.max = ui.cursor.min + ⟨fieldSize, fieldSize⟩
  over_ : ui.Over
  shot : Inside ui.lastShot

theorem Steady.related {ui : NcursesInterface} (steady : ui.Steady) :
    Inside ui.cursor.getRelatedPos := by
  have right := steady.placed.right
  have bottom := steady.placed.bottom
  have left := steady.placed.left
  have top := steady.placed.top
  rw [steady.box] at right bottom
  simp only [Point.add_x, Point.add_y, fieldSize] at right bottom
  unfold Inside fldSz
  simp only [Cursor.getRelatedPos, Point.sub_x, Point.sub_y]
  omega

theorem boxed (c : Cursor) (start : Point) :
    c.setBoundary start (start + ⟨fieldSize, fieldSize⟩) =
        ⟨start, start, start + ⟨fieldSize, fieldSize⟩⟩ ∧
      (c.setBoundary start (start + ⟨fieldSize, fieldSize⟩)).Placed := by
  apply Cursor.setBoundary_placed
  · simp only [Point.add_x, fieldSize]
    omega
  · simp only [Point.add_y, fieldSize]
    omega

theorem init_steady : init.Steady := by
  constructor
  · exact (boxed Cursor.new ownFieldStart).2
  · decide
  · constructor <;> intro mode <;> cases mode
  · decide

section Messages

variable {ui : NcursesInterface}

theorem Steady.of_eq {ui' : NcursesInterface} (steady : ui.Steady) (cursor : ui'.cursor = ui.cursor)
    (mode : ui'.mode = ui.mode) (shot : ui'.lastShot = ui.lastShot) : ui'.Steady := by
  obtain ⟨placed, box, over_, inside⟩ := steady
  exact ⟨cursor ▸ placed, cursor ▸ box, by unfold Over; rw [mode, cursor]; exact over_,
    shot ▸ inside⟩

/-- A mode in which no key moves the cursor may be entered at any time. -/
theorem Steady.rest {ui' : NcursesInterface} (steady : ui.Steady) (cursor : ui'.cursor = ui.cursor)
    (mode : ui'.mode = .wait ∨ ui'.mode = .enemyTurn)
    (shot : Inside ui'.lastShot) : ui'.Steady := by
  obtain ⟨placed, box, _, _⟩ := steady
  refine ⟨cursor ▸ placed, cursor ▸ box, ?_, shot⟩
  rcases mode with wait | enemy
  · constructor <;> intro other <;> cases wait.symm.trans other
  · constructor <;> intro other <;> cases enemy.symm.trans other

theorem activatePreparationMode_steady (steady : ui.Steady) (endTime : Int64) (read : Readings) :
    (ui.activatePreparationMode endTime read).Steady := by
  obtain ⟨corner, placed⟩ := boxed ui.cursor ownFieldStart
  have cursor : (ui.activatePreparationMode endTime read).cursor =
      ⟨ownFieldStart, ownFieldStart, ownFieldStart + ⟨fieldSize, fieldSize⟩⟩ := corner
  constructor
  · exact placed
  · rw [cursor]
  · constructor
    · intro _
      rw [cursor]
    · intro mode
      cases mode
  · exact steady.shot

theorem activateOwnTurnMode_steady (steady : ui.Steady) (endTime : Int64) (read : Readings) :
    (ui.activateOwnTurnMode endTime read).Steady ∧
      (ui.activateOwnTurnMode endTime read).cursor.getRelatedPos = ui.lastShot := by
  obtain ⟨corner, placed⟩ := boxed ui.cursor enemyFieldStart
  have cursor : (ui.activateOwnTurnMode endTime read).cursor =
      (ui.cursor.setBoundary enemyFieldStart (enemyFieldStart +
        ⟨fieldSize, fieldSize⟩)).setRelatedPos ui.lastShot := rfl
  have ends : (ui.activateOwnTurnMode endTime read).cursor.min = enemyFieldStart ∧
      (ui.activateOwnTurnMode endTime read).cursor.max =
        enemyFieldStart + ⟨fieldSize, fieldSize⟩ := by
    rw [cursor, Cursor.setRelatedPos, Cursor.checkPos_min, Cursor.checkPos_max, corner]
    exact ⟨rfl, rfl⟩
  refine ⟨⟨?_, ?_, ⟨?_, fun _ => ends.1⟩, steady.shot⟩, ?_⟩
  · rw [cursor]
    exact Cursor.setRelatedPos_placed placed _
  · rw [ends.1, ends.2]
  · intro mode
    cases mode
  · obtain ⟨left, right, top, bottom⟩ := steady.shot
    rw [cursor, corner]
    apply Cursor.setRelatedPos_inside
    · exact left
    · simpa only [enemyFieldStart, fieldSize, Point.add_x, add_sub_cancel_left] using right
    · exact top
    · simpa only [enemyFieldStart, fieldSize, Point.add_y, add_sub_cancel_left] using bottom

theorem stopPreparationMode_steady (steady : ui.Steady) : ui.stopPreparationMode.Steady := by
  unfold stopPreparationMode
  split_ifs
  · exact steady
  · exact steady.rest rfl (.inl rfl) (show Inside ⟨0, 0⟩ by decide)

end Messages
end NcursesInterface

namespace BattleshipGame

theorem Pressed.steady {game game' : BattleshipGame} (pressed : game.Pressed game')
    (steady : game.interface.Steady) : game'.interface.Steady := by
  cases pressed with
  | idle | asked => exact steady
  | moved offset =>
      obtain ⟨placed, box, over_, shot⟩ := steady
      refine ⟨Cursor.move_placed placed offset, ?_, ?_, shot⟩
      · simpa only [Cursor.move, Cursor.checkPos_min, Cursor.checkPos_max] using box
      · simpa only [NcursesInterface.Over, Cursor.move, Cursor.checkPos_min] using over_
  | edited mode inside =>
      obtain ⟨placed, box, over_, _⟩ := steady
      exact ⟨placed, box, over_, inside⟩
  | shot mode empty => exact steady.rest rfl (.inl rfl) steady.related

theorem processMsg_steady {game : BattleshipGame} (steady : game.interface.Steady) (msg : Message)
    (read : Readings) : (game.processMsg msg read).interface.Steady := by
  unfold processMsg
  cases msg.body with
  | gameState | serverConnStatus => exact steady.of_eq rfl rfl rfl
  | gameField field isOwnField => cases isOwnField <;> exact steady.of_eq rfl rfl rfl
  | startFieldReq endTime =>
      exact (NcursesInterface.activatePreparationMode_steady steady endTime read).of_eq rfl rfl rfl
  | stopPreparation =>
      exact (NcursesInterface.stopPreparationMode_steady steady).of_eq rfl rfl rfl
  | startTurn endTime isOwn =>
      cases isOwn with
      | true =>
          exact (NcursesInterface.activateOwnTurnMode_steady steady endTime read).1.of_eq rfl rfl rfl
      | false => exact steady.rest rfl (.inr rfl) steady.shot
  | stopTurn isOwn => cases isOwn <;> exact steady.rest rfl (.inl rfl) steady.shot
  | _ => exact steady

theorem act_steady {game : BattleshipGame} (steady : game.interface.Steady) (a : Act) :
    (game.act a).interface.Steady := by
  cases a with
  | key key => exact (pressed game key).steady steady
  | message msg read => exact processMsg_steady steady msg read

theorem acts_steady {game : BattleshipGame} (steady : game.interface.Steady) (as : List Act) :
    (game.acts as).interface.Steady := by
  induction as using List.reverseRecOn with
  | nil => exact steady
  | append_singleton as a ih =>
      rw [acts_snoc]
      exact act_steady ih a

/-- The moves among the messages that were put for the server. -/
def movesSent (game : BattleshipGame) : Nat :=
  game.toServer.countP fun msg => decide (msg.type = .gameMove)

end BattleshipGame

def Body.isOwnTurn : Body → Bool
  | .startTurn _ isOwn => isOwn
  | _ => false

def Act.isOwnTurn : Act → Bool
  | .key _ => false
  | .message msg _ => msg.body.isOwnTurn

namespace BattleshipGame

def spare (game : BattleshipGame) : Nat := if game.interface.mode = .ownTurn then 1 else 0

@[simp] theorem movesSent_put (game : BattleshipGame) (body : Body) :
    (game.put body).movesSent = game.movesSent + if body.type = .gameMove then 1 else 0 := by
  by_cases move : body.type = .gameMove <;> simp [movesSent, put, Message.type, move]

theorem Pressed.movesSent {game game' : BattleshipGame} (pressed : game.Pressed game') :
    game'.movesSent + game'.spare ≤ game.movesSent + game.spare := by
  cases pressed with
  | idle | moved | edited => exact le_rfl
  | shot mode empty =>
      have before : game.spare = 1 := if_pos mode
      rw [movesSent_put, before]
      exact le_rfl
  | asked body request =>
      rcases request with rfl | rfl
      · rw [movesSent_put]
        exact Nat.le_refl _
      · rw [movesSent_put]
        exact Nat.le_refl _

theorem processMsg_movesSent (game : BattleshipGame) (msg : Message) (read : Readings) :
    (game.processMsg msg read).movesSent + (game.processMsg msg read).spare ≤
      game.movesSent + game.spare + if msg.body.isOwnTurn then 1 else 0 := by
  have rest (ui : NcursesInterface) (mode : ui.mode ≠ .ownTurn) :
      BattleshipGame.movesSent { game with interface := ui } +
        BattleshipGame.spare { game with interface := ui } = game.movesSent := by
    simp only [spare, mode, ↓reduceIte, Nat.add_zero]
    rfl
  unfold processMsg
  cases msg.body with
  | gameField field isOwnField => cases isOwnField <;> exact Nat.le_add_right _ _
  | startFieldReq endTime =>
      exact (rest _ (show InterfaceMode.preparation ≠ .ownTurn by decide)).trans_le (by omega)
  | stopPreparation =>
      -- The mode either stays or becomes that of waiting.
      have mode : game.interface.stopPreparationMode.mode = .ownTurn →
          game.interface.mode = .ownTurn := by
        unfold NcursesInterface.stopPreparationMode
        split_ifs
        · exact id
        · intro wait
          cases wait
      have kept : game.processStopPreparationMsg.spare ≤ game.spare := by
        unfold spare
        split_ifs with after before
        · exact le_rfl
        · exact absurd (mode after) before
        · exact Nat.zero_le _
        · exact le_rfl
      have sent : game.processStopPreparationMsg.movesSent = game.movesSent := by
        rw [processStopPreparationMsg, movesSent_put]
        rfl
      dsimp only
      omega
  | startTurn endTime isOwn =>
      cases isOwn with
      | true =>
          have one : BattleshipGame.spare { game with
              interface := processStartTurnMsg game.interface endTime true read } = 1 := rfl
          have sent : BattleshipGame.movesSent { game with
              interface := processStartTurnMsg game.interface endTime true read } =
            game.movesSent := rfl
          simp only [one, sent, Body.isOwnTurn, ↓reduceIte]
          omega
      | false =>
          exact (rest _ (show InterfaceMode.enemyTurn ≠ .ownTurn by decide)).trans_le (by omega)
  | stopTurn isOwn =>
      cases isOwn <;>
        exact (rest _ (show InterfaceMode.wait ≠ .ownTurn by decide)).trans_le (by omega)
  | _ => exact Nat.le_add_right _ _

/-- A turn is good for one move, however the keys are pressed and whatever else comes. -/
theorem movesSent_le (game : BattleshipGame) (as : List Act) :
    (game.acts as).movesSent + (game.acts as).spare ≤
      game.movesSent + game.spare + as.countP Act.isOwnTurn := by
  induction as using List.reverseRecOn with
  | nil => exact Nat.le_add_right _ _
  | append_singleton as a ih =>
      rw [acts_snoc, List.countP_append, List.countP_singleton]
      cases a with
      | key key =>
          have step := (pressed (game.acts as) key).movesSent
          exact (step.trans ih).trans (Nat.add_le_add_left (Nat.le_add_right _ _) _)
      | message msg read =>
          have step := processMsg_movesSent (game.acts as) msg read
          exact step.trans ((Nat.add_le_add_right ih _).trans_eq (Nat.add_assoc ..))

def Aimed (game : BattleshipGame) : Prop :=
  ∀ msg ∈ game.toServer, msg.type = .gameMove → ∃ point, Inside point ∧ msg.body = moveBody point

theorem Aimed.put {game : BattleshipGame} (aimed : game.Aimed) {body : Body}
    (cell : body.type = .gameMove → ∃ point, Inside point ∧ body = moveBody point) :
    (game.put body).Aimed := by
  intro msg member move
  rcases List.mem_append.mp member with old | new
  · exact aimed msg old move
  · obtain rfl := List.mem_singleton.mp new
    rw [Message.type, Message.new_body] at move
    rw [Message.new_body]
    exact cell move

theorem act_aimed {game : BattleshipGame} (steady : game.interface.Steady) (aimed : game.Aimed)
    (a : Act) : (game.act a).Aimed := by
  cases a with
  | key key =>
      have step := pressed game key
      change (game.processKey key).Aimed
      generalize game.processKey key = game' at step ⊢
      cases step with
      | idle | moved | edited => exact aimed
      | shot mode empty =>
          have kept : Aimed { game with interface :=
              (game.interface.setLastShot game.interface.cursor.getRelatedPos).stopOwnTurnMode } :=
            aimed
          exact kept.put fun _ => ⟨_, steady.related, rfl⟩
      | asked body request =>
          apply Aimed.put aimed
          rcases request with rfl | rfl <;> exact fun move => absurd move (by decide)
  | message msg read =>
      change (game.processMsg msg read).Aimed
      unfold processMsg
      cases msg.body with
      | stopPreparation =>
          have kept : Aimed { game with interface :=
              game.interface.stopPreparationMode.setGameState GameState.waitStart.code } := aimed
          apply kept.put
          intro move
          cases move
      | _ => exact aimed

/-- On the way into the message a cell's coordinates do not change. -/
theorem moveBody_inside {point : Point} (inside : Inside point) :
    moveBody point = .gameMove (Int32.ofInt point.x) (Int32.ofInt point.y) ∧
      (Int32.ofInt point.x).toInt = point.x ∧ (Int32.ofInt point.y).toInt = point.y := by
  obtain ⟨left, right, top, bottom⟩ := inside
  refine ⟨rfl, ?_, ?_⟩
  · exact Int32.toInt_ofInt_of_le (by omega) (by unfold fldSz at right; omega)
  · exact Int32.toInt_ofInt_of_le (by omega) (by unfold fldSz at bottom; omega)

end BattleshipGame

/-- Every move that the interface process ever sends names a cell of the field, and however
keys and messages follow each other there are no more moves than own turns were announced:
from any moment on at most one more if a turn is open then. -/
theorem moves_within_turns (clientFd : Nat) (before after : List Act) :
    let game := (BattleshipGame.init clientFd).acts before
    let game' := (BattleshipGame.init clientFd).acts (before ++ after)
    (∀ msg ∈ game'.toServer, msg.type = .gameMove →
        ∃ x y, msg.body = .gameMove x y ∧ Inside ⟨x.toInt, y.toInt⟩) ∧
      game'.movesSent ≤ game.movesSent + (if game.interface.mode = .ownTurn then 1 else 0) +
        after.countP Act.isOwnTurn := by
  intro game game'
  have aimed (as : List Act) : ((BattleshipGame.init clientFd).acts as).Aimed := by
    induction as using List.reverseRecOn with
    | nil => exact fun msg member => absurd member List.not_mem_nil
    | append_singleton as a ih =>
        rw [BattleshipGame.acts_snoc]
        exact BattleshipGame.act_aimed
          (BattleshipGame.acts_steady NcursesInterface.init_steady as) ih a
  constructor
  · intro msg member move
    obtain ⟨point, inside, body⟩ := aimed _ msg member move
    obtain ⟨same, x, y⟩ := BattleshipGame.moveBody_inside inside
    refine ⟨_, _, body.trans same, ?_⟩
    rw [x, y]
    exact inside
  · have bound := BattleshipGame.movesSent_le game after
    rw [← BattleshipGame.acts_append] at bound
    exact (Nat.le_add_right _ _).trans bound

end Battleship
