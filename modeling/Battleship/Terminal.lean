import Battleship.Drawing
import Battleship.Screens

/-! What stands on the terminal after `show`, in whatever state keys and messages have brought
the interface, and where the characters of the background come from. -/
namespace Battleship

open CharScreen

/-- No two line breaks follow each other. -/
def NoEmptyLine (file : List Char) : Prop := file.IsChain fun a b => a ≠ '\n' ∨ b ≠ '\n'

/-- The characters of the file without the line breaks. -/
def visible (file : List Char) : List Char := file.filter fun ch => decide (ch ≠ '\n')

theorem visible_break (file : List Char) : visible ('\n' :: file) = visible file :=
  List.filter_cons_of_neg (by decide)

theorem visible_char {ch : Char} (shown : ch ≠ '\n') (file : List Char) :
    visible (ch :: file) = ch :: visible file :=
  List.filter_cons_of_pos (by simpa using shown)

theorem map_cons_prefix (ch : Char) (count : Nat) (chars : List Char) :
    (if count ≤ chars.length then some (chars.take count) else none).map (ch :: ·) =
      if count + 1 ≤ (ch :: chars).length then some ((ch :: chars).take (count + 1)) else none := by
  by_cases enough : count ≤ chars.length
  · have more : count + 1 ≤ (ch :: chars).length := Nat.succ_le_succ enough
    rw [if_pos enough, if_pos more, List.take_succ_cons]
    rfl
  · have less : ¬ count + 1 ≤ (ch :: chars).length := fun more =>
      enough (Nat.le_of_succ_le_succ more)
    rw [if_neg enough, if_neg less]
    rfl

theorem loadLoop_eq (count : Nat) (file : List Char) (lines : NoEmptyLine file) :
    loadLoop count file =
      if count ≤ (visible file).length then some ((visible file).take count) else none := by
  induction count, file using loadLoop.induct with
  | case1 file => rfl
  | case2 count => rfl
  | case3 count =>
      rw [loadLoop, if_pos rfl, visible_break]
      rfl
  | case4 count ch file ih =>
      obtain ⟨second, rest⟩ := List.isChain_cons_cons.mp lines
      have shown : ch ≠ '\n' := second.resolve_left fun other => other rfl
      simp only [loadLoop, ↓reduceIte]
      rw [ih rest.tail, visible_break, visible_char shown]
      exact map_cons_prefix ch count (visible file)
  | case5 count ch file shown ih =>
      unfold loadLoop
      rw [if_neg shown, ih lines.tail, visible_char shown]
      exact map_cons_prefix ch count (visible file)

/-- A file without empty lines is a background exactly if it has enough characters apart from the
line breaks, and then they are taken row by row, however long the lines of the file are. -/
theorem load_background {file : List Char} (lines : NoEmptyLine file) :
    ((load file).isSome ↔ backgroundHeight * backgroundWidth ≤ (visible file).length) ∧
      ∀ background, load file = some background → ∀ y < backgroundHeight, ∀ x < backgroundWidth,
        (visible file)[y * backgroundWidth + x]? = some (background y x) := by
  unfold load
  rw [loadLoop_eq _ _ lines]
  by_cases enough : backgroundHeight * backgroundWidth ≤ (visible file).length
  · rw [if_pos enough]
    refine ⟨iff_of_true rfl enough, fun background loaded y row x col => ?_⟩
    obtain rfl := Option.some.inj loaded
    have small : y * backgroundWidth + x < backgroundHeight * backgroundWidth := by
      unfold backgroundWidth at col ⊢
      unfold backgroundHeight at row ⊢
      omega
    have within : y * backgroundWidth + x < (visible file).length := by omega
    dsimp only
    rw [List.getD_eq_getElem?_getD, List.getElem?_take, if_pos small,
      List.getElem?_eq_getElem within]
    rfl
  · rw [if_neg enough]
    exact ⟨iff_of_false Bool.false_ne_true enough, fun background loaded => nomatch loaded⟩

/-- One long line without a break. -/
theorem load_background_line : (load (List.replicate 525 '#')).isSome :=
  (load_background (List.isChain_replicate_of_rel 525 (.inl (by decide)))).1.mpr (by decide +kernel)

section Terminal

variable {s : Screen}

/-- Only the start of a countdown takes the cursor to the other box. -/
theorem act_corner (game : BattleshipGame) (a : Act) :
    (game.act a).interface.cursor.min = game.interface.cursor.min ∨
      (game.act a).interface.cursor.min = ownFieldStart ∨
        (game.act a).interface.cursor.min = enemyFieldStart := by
  cases a with
  | key key =>
      left
      have step := BattleshipGame.pressed game key
      change (game.processKey key).interface.cursor.min = _
      generalize game.processKey key = game' at step ⊢
      cases step with
      | moved offset => exact Cursor.checkPos_min _
      | idle | edited | shot | asked => rfl
  | message msg read =>
      have acted : game.act (.message msg read) = game.processMsg msg read := rfl
      rw [acted]
      unfold BattleshipGame.processMsg
      cases msg.body with
      | gameField field isOwnField => cases isOwnField <;> exact .inl rfl
      | startFieldReq endTime =>
          right; left
          exact congrArg Cursor.min (NcursesInterface.boxed game.interface.cursor ownFieldStart).1
      | startTurn endTime isOwn =>
          cases isOwn with
          | true =>
              right; right
              refine (Cursor.checkPos_min _).trans ?_
              exact congrArg Cursor.min
                (NcursesInterface.boxed game.interface.cursor enemyFieldStart).1
          | false => exact .inl rfl
      | stopTurn isOwn => cases isOwn <;> exact .inl rfl
      | stopPreparation =>
          left
          dsimp only [BattleshipGame.processStopPreparationMsg, BattleshipGame.put]
          unfold NcursesInterface.stopPreparationMode
          split_ifs <;> rfl
      | _ => exact .inl rfl

theorem acts_corner (clientFd : Nat) (as : List Act) :
    ((BattleshipGame.init clientFd).acts as).interface.cursor.min = ownFieldStart ∨
      ((BattleshipGame.init clientFd).acts as).interface.cursor.min = enemyFieldStart := by
  induction as using List.reverseRecOn with
  | nil => exact .inl rfl
  | append_singleton as a ih =>
      rw [BattleshipGame.acts_snoc]
      rcases act_corner ((BattleshipGame.init clientFd).acts as) a with kept | taken
      · rwa [kept]
      · exact taken

theorem cursor_within (roomy : NcursesInterface.Roomy s) (clientFd : Nat) (as : List Act) :
    s.Within ((BattleshipGame.init clientFd).acts as).interface.cursor.pos.y
      ((BattleshipGame.init clientFd).acts as).interface.cursor.pos.x := by
  have steady : ((BattleshipGame.init clientFd).acts as).interface.Steady :=
    BattleshipGame.acts_steady NcursesInterface.init_steady as
  have corner := acts_corner clientFd as
  generalize ((BattleshipGame.init clientFd).acts as).interface = ui at steady corner ⊢
  obtain ⟨left, right, top, bottom⟩ := steady.placed
  rw [steady.box] at right bottom
  simp only [Point.add_x, Point.add_y, fieldSize] at right bottom
  have corner : (ui.cursor.min.x = 1 ∨ ui.cursor.min.x = 14) ∧ ui.cursor.min.y = 3 := by
    rcases corner with own | enemy
    · rw [own]
      exact ⟨.inl rfl, rfl⟩
    · rw [enemy]
      exact ⟨.inr rfl, rfl⟩
  exact roomy.within (by omega) (by omega)

/-- Whatever keys and messages have come and whatever stood on a terminal that is large enough,
`show` leaves the picture of the interface there, changes nothing outside of it and puts the
terminal's cursor on the player's. The background is one of printable characters: on another
one the terminal may show something else. -/
theorem terminal_shows (roomy : NcursesInterface.Roomy s) (clientFd : Nat) (as : List Act)
    (background : Background) (now : Int64) :
    let ui := ((BattleshipGame.init clientFd).acts as).interface
    let s' := ui.showScreen background now s
    s.SameSize s' ∧ ui.CursorAt s' ∧ ∀ y x, s'.cells y x =
      if 0 ≤ y ∧ y < 21 ∧ 0 ≤ x ∧ x < 25 then ui.picture background now y x
      else s.cells y x := by
  intro ui s'
  obtain ⟨size, cells⟩ := NcursesInterface.showScreen_draws roomy ui background now
  exact ⟨size, NcursesInterface.showScreen_cursor roomy (cursor_within roomy clientFd as)
    background now, cells⟩

/-- An empty terminal of the usual size. -/
def blank : Screen := ⟨80, 24, fun _ _ => ' ', 0, 0⟩

theorem blank_roomy : NcursesInterface.Roomy blank := by
  constructor <;> decide

theorem terminal_shows_start :
    let ui := ((BattleshipGame.init 3).acts []).interface
    ui.CursorAt (ui.showScreen (fun _ _ => '#') 0 blank) ∧
      (ui.showScreen (fun _ _ => '#') 0 blank).cells 20 24 = '#' := by
  obtain ⟨_, cursor, cells⟩ := terminal_shows blank_roomy 3 [] (fun _ _ => '#') 0
  refine ⟨cursor, (cells 20 24).trans ?_⟩
  rw [if_pos (by decide)]
  decide +kernel

theorem picture_enemy (ui : NcursesInterface) (background : Background) (now : Int64) {p : Point}
    (inside : Inside p) :
    ui.picture background now (enemyFieldStart.y + p.y) (enemyFieldStart.x + p.x) =
      (ui.enemyField.getState p).char := by
  have same : (⟨enemyFieldStart.x + p.x, enemyFieldStart.y + p.y⟩ : Point) - enemyFieldStart =
      p := by
    apply Point.ext'
    · simp only [Point.sub_x]
      omega
    · simp only [Point.sub_y]
      omega
  have row : 3 ≤ enemyFieldStart.y + p.y ∧ enemyFieldStart.y + p.y < 13 := by
    have top : enemyFieldStart.y = 3 := rfl
    unfold Inside fldSz at inside
    omega
  unfold NcursesInterface.picture
  unfold NcursesInterface.timerY NcursesInterface.serverStateY NcursesInterface.gameStatusY
  rw [if_neg (by omega), if_neg (by omega), if_neg (by omega), same, if_pos inside]

theorem getForEnemy_getState (f : GameField) {p : Point} (inside : Inside p) :
    f.getForEnemy.getState p =
      if f.getState p = .unharmed then .empty else f.getState p := by
  have known : GameField.contains p = true := GameField.contains_iff.mpr inside
  unfold GameField.getState
  rw [GameField.at'_getForEnemy f inside, known]
  by_cases whole : f.at' p = CellState.unharmed.toCell
  · simp [whole, CellState.toCell]
  · have other : f.at' p ≠ 1 := whole
    simp only [other, whole, Bool.not_true, Bool.false_eq_true, if_false]
    split_ifs <;> simp_all

/-- Once the other player's field has been sent to him while a game is played, a player sees a
cross where he has hit a ship there, a dot where he has missed and nothing elsewhere, where his
ships may be. -/
theorem terminal_shows_opponent {srv : Server} (reachable : srv.Reachable) {s : SessionId}
    {i : PlayerIdx} {c : ClientId} (seated : (srv.sessions s).players i = some c)
    (playing : (srv.sessions s).Playing) (clientFd : Nat) {as : List Act}
    (caught : srv.sent c <:+ Board.loud (heard as))
    (sent : (Board.after (heard as)).enemy ≠ none) {screen : Screen}
    (roomy : NcursesInterface.Roomy screen) (background : Background) (now : Int64) {p : Point}
    (inside : Inside p) :
    (((BattleshipGame.init clientFd).acts as).interface.showScreen background now screen).cells
        (enemyFieldStart.y + p.y) (enemyFieldStart.x + p.x) =
      if ((srv.sessions s).fields (getEnemyIdx i)).getState p = .unharmed then ' '
      else (((srv.sessions s).fields (getEnemyIdx i)).getState p).char := by
  have shown := (knows_of_caught reachable seated caught).enemyField (acts_reflect clientFd as)
    playing sent
  have area : 0 ≤ enemyFieldStart.y + p.y ∧ enemyFieldStart.y + p.y < 21 ∧
      0 ≤ enemyFieldStart.x + p.x ∧ enemyFieldStart.x + p.x < 25 := by
    have corner : enemyFieldStart.x = 14 ∧ enemyFieldStart.y = 3 := ⟨rfl, rfl⟩
    have bounds := inside
    unfold Inside fldSz at bounds
    omega
  rw [(NcursesInterface.showScreen_draws roomy _ background now).2, if_pos area,
    picture_enemy _ background now inside, shown, getForEnemy_getState _ inside]
  split_ifs <;> rfl

/-- At the start of the game nothing of the other player's field is seen. -/
theorem terminal_shows_opponent_opening :
    (((BattleshipGame.init 3).acts (deliver (Server.after opening) 1)).interface.showScreen
      (fun _ _ => '#') 0 blank).cells 3 14 = ' ' := by
  obtain ⟨_, seated, state, _⟩ := opening_seats
  have shown := terminal_shows_opponent opening_reachable seated (.inl state) 3
    (heard_deliver _ 1) (by decide +kernel) blank_roomy (fun _ _ => '#') 0
    (show Inside ⟨0, 0⟩ by decide)
  have corner : enemyFieldStart.y + (⟨0, 0⟩ : Point).y = 3 ∧
      enemyFieldStart.x + (⟨0, 0⟩ : Point).x = 14 := ⟨rfl, rfl⟩
  rw [corner.1, corner.2] at shown
  rw [shown]
  decide +kernel

end Terminal
end Battleship
