import Battleship.PlayerActs
import Battleship.SessionSafety

/-! What a player can do with his keys: where the arrows take the cursor, and that he can
prepare any field of water and whole ships, which then becomes his field at the server. -/
namespace Battleship

def Key.offset : Key → Option Point
  | .up => some ⟨0, -1⟩
  | .down => some ⟨0, 1⟩
  | .left => some ⟨-1, 0⟩
  | .right => some ⟨1, 0⟩
  | _ => none

def Key.isArrow (key : Key) : Bool := key.offset.isSome

/-- The keys are pressed one after the other and nothing else happens. -/
def pressing (keys : List Key) : List Act := keys.map .key

/-- The cursor answers to the arrows. -/
def NcursesInterface.Steers (ui : NcursesInterface) : Prop :=
  ui.mode = .preparation ∨ ui.mode = .ownTurn

def NcursesInterface.withCursor (ui : NcursesInterface) (cursor : Cursor) : NcursesInterface :=
  { ui with cursor := cursor }

namespace BattleshipGame

def withInterface (game : BattleshipGame) (ui : NcursesInterface) : BattleshipGame :=
  { game with interface := ui }

@[simp] theorem withInterface_interface (game : BattleshipGame) (ui : NcursesInterface) :
    (game.withInterface ui).interface = ui := rfl
@[simp] theorem withInterface_twice (game : BattleshipGame) (ui ui' : NcursesInterface) :
    (game.withInterface ui).withInterface ui' = game.withInterface ui' := rfl
@[simp] theorem withInterface_toServer (game : BattleshipGame) (ui : NcursesInterface) :
    (game.withInterface ui).toServer = game.toServer := rfl

theorem pressing_append (game : BattleshipGame) (keys keys' : List Key) :
    game.acts (pressing (keys ++ keys')) = (game.acts (pressing keys)).acts (pressing keys') := by
  rw [pressing, List.map_append, acts_append]
  rfl

theorem act_arrow {game : BattleshipGame} (steers : game.interface.Steers) {key : Key}
    {offset : Point} (arrow : key.offset = some offset) :
    game.act (.key key) = game.withInterface
      (game.interface.withCursor (game.interface.cursor.move offset)) := by
  have still : ¬ (game.interface.mode ≠ .preparation ∧ game.interface.mode ≠ .ownTurn) := by
    rcases steers with mode | mode <;> simp [mode]
  cases key with
  | up | down | left | right =>
      obtain rfl := Option.some.inj arrow
      simp only [act, processKey, NcursesInterface.processInput, NcursesInterface.processMoveInput,
        if_neg still]
      rfl
  | _ => cases arrow

theorem acts_arrows {game : BattleshipGame} (steers : game.interface.Steers) {keys : List Key}
    (arrows : ∀ key ∈ keys, key.isArrow = true) :
    game.acts (pressing keys) = game.withInterface (game.interface.withCursor
      (game.interface.cursor.moves (keys.filterMap Key.offset))) := by
  induction keys using List.reverseRecOn with
  | nil => rfl
  | append_singleton keys key ih =>
      have before := ih fun key' member => arrows key' (List.mem_append_left _ member)
      have last := arrows key (List.mem_append_right _ (List.mem_singleton_self key))
      obtain ⟨offset, arrow⟩ := Option.isSome_iff_exists.mp last
      have steers' : (game.acts (pressing keys)).interface.Steers := by
        rw [before]
        exact steers
      have one : [key].filterMap Key.offset = [offset] := by simp [arrow]
      rw [pressing_append]
      change (game.acts (pressing keys)).act (.key key) = _
      rw [act_arrow steers' arrow, before, List.filterMap_append, one]
      simp only [Cursor.moves, List.foldl_append, List.foldl_cons, List.foldl_nil]
      rfl

theorem offsets_small (keys : List Key) : ∀ offset ∈ keys.filterMap Key.offset,
    (-1 ≤ offset.x ∧ offset.x ≤ 1) ∧ (-1 ≤ offset.y ∧ offset.y ≤ 1) := by
  intro offset member
  obtain ⟨key, _, arrow⟩ := List.mem_filterMap.mp member
  cases key <;> cases arrow <;> decide

theorem sum_offsets (keys : List Key) :
    ((keys.filterMap Key.offset).map Point.x).sum =
        (keys.count .right : Int) - keys.count .left ∧
      ((keys.filterMap Key.offset).map Point.y).sum =
        (keys.count .down : Int) - keys.count .up := by
  induction keys with
  | nil => exact ⟨rfl, rfl⟩
  | cons key keys ih =>
      obtain ⟨columns, rows⟩ := ih
      cases key <;> simp [List.filterMap_cons, Key.offset, columns, rows] <;> omega

/-- Wherever the cursor is, any mixture of arrows takes it where their numbers say, around
the edges of the field, and changes nothing else. -/
theorem arrows_add_up {game : BattleshipGame} (steady : game.interface.Steady)
    (steers : game.interface.Steers) {keys : List Key} (arrows : ∀ key ∈ keys, key.isArrow = true) :
    ∃ cursor : Cursor,
      game.acts (pressing keys) = game.withInterface (game.interface.withCursor cursor) ∧
      cursor.getRelatedPos =
        ⟨(game.interface.cursor.getRelatedPos.x + keys.count .right - keys.count .left) % 10,
          (game.interface.cursor.getRelatedPos.y + keys.count .down - keys.count .up) % 10⟩ := by
  refine ⟨_, acts_arrows steers arrows, ?_⟩
  have width : game.interface.cursor.max.x - game.interface.cursor.min.x = 10 := by
    rw [steady.box]
    exact add_sub_cancel_left _ _
  have height : game.interface.cursor.max.y - game.interface.cursor.min.y = 10 := by
    rw [steady.box]
    exact add_sub_cancel_left _ _
  obtain ⟨columns, rows⟩ := sum_offsets keys
  rw [Cursor.moves_related steady.placed (offsets_small keys), columns, rows, width, height,
    Int.add_sub_assoc, Int.add_sub_assoc]

theorem arrows_reach {game : BattleshipGame} (steady : game.interface.Steady)
    (steers : game.interface.Steers) {point : Point} (inside : Inside point) :
    ∃ keys cursor, game.acts (pressing keys) =
        game.withInterface (game.interface.withCursor cursor) ∧
      cursor.getRelatedPos = point := by
  let right := ((point.x - game.interface.cursor.getRelatedPos.x) % 10).toNat
  let down := ((point.y - game.interface.cursor.getRelatedPos.y) % 10).toNat
  have arrows : ∀ key ∈ List.replicate right Key.right ++ List.replicate down Key.down,
      key.isArrow = true := by
    intro key member
    rcases List.mem_append.mp member with first | second
    · rw [List.eq_of_mem_replicate first]
      rfl
    · rw [List.eq_of_mem_replicate second]
      rfl
  obtain ⟨cursor, moved, here⟩ := arrows_add_up steady steers arrows
  refine ⟨_, cursor, moved, here.trans ?_⟩
  obtain ⟨left, right', top, bottom⟩ := inside
  apply Point.ext'
  · have count : (List.replicate right Key.right ++ List.replicate down Key.down).count .right =
        right ∧ (List.replicate right Key.right ++ List.replicate down Key.down).count .left = 0 := by
      simp [List.count_append, List.count_replicate]
    dsimp only
    rw [count.1, count.2]
    unfold fldSz at *
    omega
  · have count : (List.replicate right Key.right ++ List.replicate down Key.down).count .down =
        down ∧ (List.replicate right Key.right ++ List.replicate down Key.down).count .up = 0 := by
      simp [List.count_append, List.count_replicate]
    dsimp only
    rw [count.1, count.2]
    unfold fldSz at *
    omega

/-- In every state of the interface in which the cursor can be moved, arrows in any mixture and
order take it where their numbers say, around the edges of the field, and do nothing else. -/
theorem arrows_go_around (clientFd : Nat) {as : List Act}
    (steers : ((BattleshipGame.init clientFd).acts as).interface.Steers) {keys : List Key}
    (arrows : ∀ key ∈ keys, key.isArrow = true) :
    let game := (BattleshipGame.init clientFd).acts as
    let game' := (BattleshipGame.init clientFd).acts (as ++ pressing keys)
    game' = game.withInterface (game.interface.withCursor game'.interface.cursor) ∧
      game'.interface.cursor.getRelatedPos =
        ⟨(game.interface.cursor.getRelatedPos.x + keys.count .right - keys.count .left) % 10,
          (game.interface.cursor.getRelatedPos.y + keys.count .down - keys.count .up) % 10⟩ := by
  intro game game'
  obtain ⟨cursor, moved, here⟩ :=
    arrows_add_up (acts_steady NcursesInterface.init_steady as) steers arrows
  have same : game' = game.withInterface (game.interface.withCursor cursor) := by
    rw [← moved]
    exact acts_append _ as (pressing keys)
  have cursor_ : game'.interface.cursor = cursor := by rw [same]; rfl
  rw [cursor_]
  exact ⟨same, here⟩

/-- From the corner to the left and up. -/
theorem arrows_go_around_corner :
    ((BattleshipGame.init 3).acts ([.message ⟨noId, .startFieldReq 70⟩ ⟨0, 0⟩] ++
      pressing [.left, .up, .up])).interface.cursor.getRelatedPos = ⟨9, 8⟩ :=
  (arrows_go_around 3 (.inl rfl) (by decide)).2

def Plain (cell : Cell) : Prop := cell = 0 ∨ cell = 1

def Prepares (game : BattleshipGame) (field : GameField) (game' : BattleshipGame) : Prop :=
  game'.interface.ownField = field ∧ game'.interface.mode = .preparation ∧
    game'.toServer = game.toServer

theorem act_space {game : BattleshipGame} (mode : game.interface.mode = .preparation)
    (inside : Inside game.interface.cursor.getRelatedPos) :
    game.Prepares (NcursesInterface.toggled game.interface.ownField
        game.interface.cursor.getRelatedPos) (game.act (.key .space)) ∧
      (game.act (.key .space)).interface.cursor = game.interface.cursor := by
  have within : ¬ (!GameField.contains game.interface.cursor.getRelatedPos) = true := by
    simpa using inside
  simp only [act, processKey, NcursesInterface.processInput, NcursesInterface.processEnterInput,
    if_pos mode, if_neg within]
  exact ⟨⟨rfl, mode, rfl⟩, rfl⟩

theorem toggled_eq (field : GameField) {point : Point} (inside : Inside point) :
    NcursesInterface.toggled field point =
      field.put point (if field.getState point = .empty then 1 else 0) := by
  have within : ¬ (!GameField.contains point) = true := by simpa using inside
  unfold NcursesInterface.toggled
  split_ifs
  · rw [GameField.setPoint, if_neg within]
    rfl
  · rw [GameField.setPoint, if_neg within]
    rfl

theorem put_put (field : GameField) {point : Point} (inside : Inside point) (cell cell' : Cell) :
    (field.put point cell).put point cell' = field.put point cell' := by
  refine GameField.ext_at fun other _ => ?_
  rw [GameField.at'_put _ inside, GameField.at'_put _ inside, GameField.at'_put _ inside]
  split_ifs <;> rfl

theorem getState_put_one (field : GameField) {point : Point} (inside : Inside point) :
    (field.put point 1).getState point = .unharmed := by
  refine GameField.getState_unharmed.mpr ⟨inside, ?_⟩
  rw [GameField.at'_put _ inside, if_pos rfl]

theorem getState_put_zero (field : GameField) {point : Point} (inside : Inside point) :
    (field.put point 0).getState point = .empty := by
  rw [GameField.getState_empty_inside inside, GameField.at'_put _ inside, if_pos rfl]
  decide

/-- One key or two give the cell under the cursor the value that is wanted. -/
theorem presses_cell {game : BattleshipGame} (mode : game.interface.mode = .preparation)
    (inside : Inside game.interface.cursor.getRelatedPos) {cell : Cell} (plain : Plain cell) :
    ∃ keys, game.Prepares (game.interface.ownField.put game.interface.cursor.getRelatedPos cell)
      (game.acts (pressing keys)) := by
  obtain ⟨⟨field, mode', sent⟩, cursor⟩ := act_space mode inside
  rw [toggled_eq _ inside] at field
  by_cases once : cell = if game.interface.ownField.getState
      game.interface.cursor.getRelatedPos = .empty then 1 else 0
  · rw [← once] at field
    exact ⟨[.space], field, mode', sent⟩
  · have inside' : Inside (game.act (.key .space)).interface.cursor.getRelatedPos := by
      rwa [cursor]
    obtain ⟨⟨field₂, mode₂, sent₂⟩, _⟩ := act_space mode' inside'
    refine ⟨[.space, .space], ?_, mode₂, sent₂.trans sent⟩
    change ((game.act (.key .space)).act (.key .space)).interface.ownField = _
    rw [field₂, toggled_eq _ inside', cursor, field, put_put _ inside]
    congr 1
    by_cases empty : game.interface.ownField.getState
        game.interface.cursor.getRelatedPos = .empty
    · rw [if_pos empty] at once ⊢
      rw [getState_put_one _ inside, if_neg (by decide)]
      exact (plain.resolve_right once).symm
    · rw [if_neg empty] at once ⊢
      rw [getState_put_zero _ inside, if_pos rfl]
      exact (plain.resolve_left once).symm

theorem prepares_cell {game : BattleshipGame} (steady : game.interface.Steady)
    (mode : game.interface.mode = .preparation) {point : Point} (inside : Inside point)
    {cell : Cell} (plain : Plain cell) :
    ∃ keys, game.Prepares (game.interface.ownField.put point cell)
      (game.acts (pressing keys)) := by
  obtain ⟨path, cursor, moved, here⟩ := arrows_reach steady (.inl mode) inside
  have inside' : Inside (game.acts (pressing path)).interface.cursor.getRelatedPos := by
    rw [moved]
    exact here ▸ inside
  have mode' : (game.acts (pressing path)).interface.mode = .preparation := by
    rw [moved]
    exact mode
  obtain ⟨keys, field, preparing, sent⟩ := presses_cell mode' inside' plain
  refine ⟨path ++ keys, ?_, ?_, ?_⟩
  · rw [pressing_append, field, moved]
    change game.interface.ownField.put cursor.getRelatedPos cell = _
    rw [here]
  · rwa [pressing_append]
  · rw [pressing_append, sent, moved]
    rfl

def cellsOfField : List Point :=
  (List.finRange fldSz).flatMap fun y => (List.finRange fldSz).map fun x =>
    ⟨(x.val : Int), (y.val : Int)⟩

theorem mem_cellsOfField {point : Point} : point ∈ cellsOfField ↔ Inside point := by
  rw [GameField.inside_iff]
  simp only [cellsOfField, List.mem_flatMap, List.mem_map, List.mem_finRange, true_and]
  constructor
  · rintro ⟨y, x, rfl⟩
    exact ⟨y, x, rfl⟩
  · rintro ⟨y, x, rfl⟩
    exact ⟨y, x, rfl⟩

/-- One cell after the other is given the value it has in `f`. -/
theorem prepares_cells {f : GameField} (plain : ∀ point, Plain (f.at' point))
    {cells : List Point} (inside : ∀ point ∈ cells, Inside point) {game : BattleshipGame}
    (steady : game.interface.Steady) (mode : game.interface.mode = .preparation) :
    ∃ keys field, game.Prepares field (game.acts (pressing keys)) ∧
      ∀ point ∈ cells, field.at' point = f.at' point := by
  induction cells using List.reverseRecOn with
  | nil =>
      refine ⟨[], game.interface.ownField, ⟨rfl, mode, rfl⟩, fun point member => ?_⟩
      exact absurd member List.not_mem_nil
  | append_singleton cells cell ih =>
      have inCell := inside cell (List.mem_append_right _ (List.mem_singleton_self cell))
      obtain ⟨keys, field, ⟨here, preparing, sent⟩, same⟩ :=
        ih fun point member => inside point (List.mem_append_left _ member)
      obtain ⟨last, here', preparing', sent'⟩ :=
        prepares_cell (acts_steady steady (pressing keys)) preparing inCell (plain cell)
      rw [← pressing_append] at here' preparing' sent'
      refine ⟨keys ++ last, _, ⟨here', preparing', sent'.trans sent⟩, fun point member => ?_⟩
      rw [here, GameField.at'_put _ inCell]
      split_ifs with this_
      · rw [this_]
      · rcases List.mem_append.mp member with old | new
        · exact same point old
        · exact absurd (List.mem_singleton.mp new) this_

/-- Any field of water and whole ships can be prepared from any other. -/
theorem prepares_field {game : BattleshipGame} (steady : game.interface.Steady)
    (mode : game.interface.mode = .preparation) {f : GameField}
    (plain : ∀ y x, Plain (f.field y x)) :
    ∃ keys, game.Prepares f (game.acts (pressing keys)) := by
  have plain' (point : Point) : Plain (f.at' point) := by
    unfold GameField.at'
    split_ifs
    · exact plain _ _
    · exact .inl rfl
  obtain ⟨keys, field, ⟨here, preparing, sent⟩, same⟩ :=
    prepares_cells plain' (fun point => mem_cellsOfField.mp) steady mode
  refine ⟨keys, here.trans ?_, preparing, sent⟩
  exact GameField.ext_at fun point inside => same point (mem_cellsOfField.mpr inside)

/-- The field that is prepared when the preparation ends is sent as it is. -/
theorem act_stopPreparation {game : BattleshipGame} {msg : Message}
    (body : msg.body = .stopPreparation) (read : Readings) :
    (game.act (.message msg read)).toServer =
      game.toServer ++ [Message.new (.gameField game.interface.ownField true)] := by
  have kept : (game.interface.stopPreparationMode).ownField = game.interface.ownField := by
    unfold NcursesInterface.stopPreparationMode
    split_ifs <;> rfl
  simp only [act, processMsg, body, processStopPreparationMsg, put, NcursesInterface.setGameState,
    kept]

end BattleshipGame

theorem Server.step_stores {srv : Server} (inv : srv.Inv) {s : SessionId} {i : PlayerIdx}
    {c : ClientId} (seated : (srv.sessions s).players i = some c)
    (phase : (srv.sessions s).state = .preparation ∨ (srv.sessions s).state = .waitStart)
    {field : GameField} (valid : field.isValidStartField = true) (id : Int64) (own : Bool)
    (now : Int64) :
    ∃ srv', srv.step (.message c ⟨id, .gameField field own⟩ now) = .ok srv' ∧
      (srv'.sessions s).fields i = field := by
  have accepted := setField_accepted (inv.sound.apart s) seated phase field
  have alive : srv.clients c ≠ none := inv.sound.seats.alive seated
  have isAlive : (srv.clients c).isSome = true := Option.isSome_iff_ne_none.mpr alive
  let stored := (srv.setSession s { srv.sessions s with
    fields := Function.update (srv.sessions s).fields i field }).push c (Message.new (.receipt id))
  have handled : srv.processGameFieldMsg c id field = .ok stored := by
    unfold processGameFieldMsg
    simp only [gameSessionOf_eq.mpr (inv.sound.seats.seat s i c seated), valid, accepted,
      Bool.not_true, Bool.false_eq_true, ↓reduceIte]
    exact sendMsg_alive (show (srv.setSession s _).clients c ≠ none from alive) _
  refine ⟨stored.push c (Message.new (.receipt id)), ?_, ?_⟩
  · simp only [step, isAlive, ↓reduceIte, processMsg, handled]
    exact sendMsg_alive (show stored.clients c ≠ none from alive) _
  · simp only [stored, push, setSession, Function.update_self]

/-- Whatever the player has done before, by keys he can prepare any legal field; when the
preparation ends it is sent, and if his message comes in time it is his field at the
server. -/
theorem prepared_field_reaches_server {srv : Server} (reachable : srv.Reachable) {s : SessionId}
    {i : PlayerIdx} {c : ClientId} (seated : (srv.sessions s).players i = some c)
    (phase : (srv.sessions s).state = .preparation ∨ (srv.sessions s).state = .waitStart)
    (clientFd : Nat) {as : List Act}
    (mode : ((BattleshipGame.init clientFd).acts as).interface.mode = .preparation)
    {field : GameField} (valid : field.isValidStartField = true) {msg : Message}
    (body : msg.body = .stopPreparation) (read : Readings) (id now : Int64) :
    ∃ keys srv', ((BattleshipGame.init clientFd).acts
          (as ++ pressing keys ++ [.message msg read])).toServer =
        ((BattleshipGame.init clientFd).acts as).toServer ++
          [Message.new (.gameField field true)] ∧
      srv.step (.message c ⟨id, .gameField field true⟩ now) = .ok srv' ∧
      (srv'.sessions s).fields i = field := by
  have steady : ((BattleshipGame.init clientFd).acts as).interface.Steady :=
    BattleshipGame.acts_steady NcursesInterface.init_steady as
  obtain ⟨keys, prepared, _, sent⟩ := BattleshipGame.prepares_field steady mode
    (GameField.isValidStartField_cells valid)
  obtain ⟨srv', done, stored⟩ := Server.step_stores reachable.inv seated phase valid id true now
  refine ⟨keys, srv', ?_, done, stored⟩
  rw [BattleshipGame.acts_snoc, BattleshipGame.act_stopPreparation body, BattleshipGame.acts_append,
    prepared, sent]

theorem prepared_field_reaches_server_opening :
    ∃ keys srv', ((BattleshipGame.init 3).acts
          ([.message ⟨noId, .startFieldReq 70⟩ ⟨0, 0⟩] ++ pressing keys ++
            [.message ⟨noId, .stopPreparation⟩ ⟨0, 0⟩])).toServer =
        [Message.new (.gameField openingField true)] ∧
      (Server.after (opening.take 4)).step
        (.message 1 ⟨1, .gameField openingField true⟩ 0) = .ok srv' ∧
      (srv'.sessions 0).fields 1 = openingField := by
  have reachable : (Server.after (opening.take 4)).Reachable :=
    Server.reachable_after (by decide +kernel)
  have here : ((Server.after (opening.take 4)).sessions 0).players 1 = some 1 ∧
      ((Server.after (opening.take 4)).sessions 0).state = .preparation := by decide +kernel
  exact prepared_field_reaches_server reachable here.1 (.inl here.2) 3 (by decide) (by decide +kernel)
    rfl ⟨0, 0⟩ 1 0

end Battleship
