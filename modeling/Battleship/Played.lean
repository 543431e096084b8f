import Battleship.PlayerActs
import Battleship.Relay

/-! The main loop of the interface process: turn after turn it acts on a key and on the
messages that have come, and each request it makes is written or still queued. -/
namespace Battleship

open Runs Framing

/-- The message among two acts. -/
def Act.msg : Act → Option Message
  | .key _ => none
  | .message msg _ => some msg

namespace BattleshipGame

variable {game game' game'' : BattleshipGame}

def Does (game : BattleshipGame) (as : List Act) (ui : NcursesInterface) (asked : List Message) :
    Prop :=
  ∀ other : BattleshipGame, other.interface = game.interface →
    other.acts as = { other with interface := ui, toServer := other.toServer ++ asked }

theorem Does.nil (game : BattleshipGame) : game.Does [] game.interface [] := by
  intro other same
  rw [acts_nil, List.append_nil, ← same]

theorem Does.append {as as' : List Act} {ui ui' : NcursesInterface} {asked asked' : List Message}
    (first : game.Does as ui asked) (same : game'.interface = ui)
    (next : game'.Does as' ui' asked') : game.Does (as ++ as') ui' (asked ++ asked') := by
  intro other here
  rw [acts_append, first other here, next _ same.symm, List.append_assoc]

theorem Does.of_put {a : Act} (ui : NcursesInterface) (body : Body)
    (acted : ∀ other : BattleshipGame, other.interface = game.interface →
      other.act a = { other with interface := ui }.put body) :
    game.Does [a] ui [Message.new body] := acted

theorem Does.of_quiet {a : Act} (ui : NcursesInterface)
    (acted : ∀ other : BattleshipGame, other.interface = game.interface →
      other.act a = { other with interface := ui }) : game.Does [a] ui [] := by
  intro other same
  rw [List.append_nil]
  exact acted other same

theorem processKey_does (game : BattleshipGame) (key : Key) :
    ∃ ui asked, game.Does [.key key] ui asked := by
  let ui := (game.interface.processInput key).2
  have acted (other : BattleshipGame) (same : other.interface = game.interface) {result : InputResult}
      (pressed : (game.interface.processInput key).1 = result) :
      (other.interface.processInput key).1 = result ∧ (other.interface.processInput key).2 = ui := by
    rw [same]
    exact ⟨pressed, rfl⟩
  cases pressed : (game.interface.processInput key).1 with
  | reqServerConnStatus =>
      refine ⟨_, _, .of_put ui .serverConnStatusReq fun other same => ?_⟩
      obtain ⟨result, here⟩ := acted other same pressed
      rw [act, processKey, result, here]
      exact rfl
  | reqServerConn =>
      refine ⟨_, _, .of_put ui .serverConnReq fun other same => ?_⟩
      obtain ⟨result, here⟩ := acted other same pressed
      rw [act, processKey, result, here]
      exact rfl
  | reqGameSession =>
      refine ⟨_, _, .of_put ui .gameSessionReq fun other same => ?_⟩
      obtain ⟨result, here⟩ := acted other same pressed
      rw [act, processKey, result, here]
      exact rfl
  | shot =>
      refine ⟨_, _, .of_put ui.stopOwnTurnMode (moveBody ui.lastShot) fun other same => ?_⟩
      obtain ⟨result, here⟩ := acted other same pressed
      rw [act, processKey, result, here]
      exact rfl
  | quit | invalid | prepareField | cursorMove =>
      refine ⟨_, _, .of_quiet ui fun other same => ?_⟩
      obtain ⟨result, here⟩ := acted other same pressed
      rw [act, processKey, result, here]

theorem processMsg_does (game : BattleshipGame) (msg : Message) (read : Readings) :
    ∃ ui asked, game.Does [.message msg read] ui asked := by
  cases body : msg.body with
  | stopPreparation =>
      let ui := game.interface.stopPreparationMode.setGameState GameState.waitStart.code
      refine ⟨_, _, .of_put ui (.gameField ui.ownField true) fun other same => ?_⟩
      rw [act, processMsg, body]
      dsimp only
      rw [processStopPreparationMsg, same]
  | gameState | gameField | serverConnStatus | startFieldReq | startTurn | stopTurn =>
      refine ⟨_, _, .of_quiet (game.processMsg msg read).interface fun other same => ?_⟩
      rw [act, processMsg, processMsg, body]
      dsimp only
      rw [same]
  | _ =>
      refine ⟨_, _, .of_quiet game.interface fun other same => ?_⟩
      rw [act, processMsg, body]
      dsimp only
      rw [← same]

theorem processMsgs_does (game : BattleshipGame) (msgs : List Message) (clock : Nat → Readings) :
    ∃ as ui asked, as.filterMap Act.msg = msgs ∧ game.Does as ui asked ∧
      game.processMsgs msgs clock = { game with
        interface := ui, toServer := game.toServer ++ asked } := by
  induction msgs generalizing game clock with
  | nil =>
      refine ⟨[], _, _, rfl, .nil game, ?_⟩
      rw [List.append_nil]
      rfl
  | cons msg msgs ih =>
      obtain ⟨ui, asked, first⟩ := processMsg_does game msg (clock 0)
      have here : game.processMsg msg (clock 0) =
          { game with interface := ui, toServer := game.toServer ++ asked } := first game rfl
      obtain ⟨as, ui', asked', same, next, all⟩ :=
        ih (game.processMsg msg (clock 0)) fun n => clock (n + 1)
      refine ⟨[.message msg (clock 0)] ++ as, ui', asked ++ asked', ?_, ?_, ?_⟩
      · rw [List.filterMap_append, same]
        rfl
      · exact first.append (by rw [here]) next
      · rw [processMsgs, all, here, List.append_assoc]

/-- What has happened from one moment to a later one: the messages that were read, and the acts
that made the requests. -/
structure Plays (game : BattleshipGame) (as : List Act) (game' : BattleshipGame) : Prop where
  does : ∃ asked, game.Does as game'.interface asked ∧
    (game'.line.wrote ++ game'.toServer).Perm (game.line.wrote ++ game.toServer ++ asked) ∧
    (game'.line.failed = game.line.failed →
      game'.line.wrote ++ game'.toServer = game.line.wrote ++ game.toServer ++ asked)
  reads : game'.line.read = game.line.read ++ as.filterMap Act.msg
  more : game.line.failed ≤ game'.line.failed
  bytes : game'.line.failed = game.line.failed → ∃ new,
    game'.line.wrote = game.line.wrote ++ new ∧
      game'.line.bytes = game.line.bytes ++ stream Message.getData new

theorem Plays.trans {as as' : List Act} (first : game.Plays as game') (next : game'.Plays as' game'') :
    game.Plays (as ++ as') game'' := by
  obtain ⟨⟨asked, does, kept, ordered⟩, reads, more, bytes⟩ := first
  obtain ⟨⟨asked', does', kept', ordered'⟩, reads', more', bytes'⟩ := next
  refine ⟨⟨asked ++ asked', does.append rfl does', ?_, fun same => ?_⟩, ?_, more.trans more',
    fun same => ?_⟩
  · refine kept'.trans ?_
    rw [← List.append_assoc]
    exact kept.append_right asked'
  · rw [ordered' (by omega), ordered (by omega), List.append_assoc]
  · rw [reads', reads, List.filterMap_append, List.append_assoc]
  · obtain ⟨new, wrote, put⟩ := bytes (by omega)
    obtain ⟨new', wrote', put'⟩ := bytes' (by omega)
    refine ⟨new ++ new', ?_, ?_⟩
    · rw [wrote', wrote, List.append_assoc]
    · rw [put', put, stream_append, List.append_assoc]

theorem Plays.of_line {as : List Act} {asked : List Message}
    (does : game.Does as game'.interface asked)
    (line : game'.line = { game.line with read := game.line.read ++ as.filterMap Act.msg })
    (queue : game'.toServer = game.toServer ++ asked) : game.Plays as game' := by
  have all : game'.line.wrote ++ game'.toServer = game.line.wrote ++ game.toServer ++ asked := by
    rw [line, queue, List.append_assoc]
  refine ⟨⟨asked, does, ?_, fun _ => all⟩, by rw [line], by rw [line], fun _ => ⟨[], ?_, ?_⟩⟩
  · rw [all]
  · rw [line, List.append_nil]
  · rw [line, stream_nil, List.append_nil]

theorem processKey_plays (game : BattleshipGame) (key : Key) :
    game.Plays [.key key] (game.processKey key) ∧
      (game.processKey key).fromServer = game.fromServer ∧
      (game.processKey key).buf = game.buf ∧ (game.processKey key).quitFlag = game.quitFlag ∧
      (game.processKey key).clientFd = game.clientFd := by
  obtain ⟨ui, asked, does⟩ := processKey_does game key
  have here : game.processKey key =
      { game with interface := ui, toServer := game.toServer ++ asked } := does game rfl
  rw [here]
  refine ⟨Plays.of_line does ?_ rfl, rfl, rfl, rfl, rfl⟩
  exact congrArg (fun read => { game.line with read := read }) (List.append_nil _).symm

theorem readMsgFromServer_spec {answer : Option (List UInt8)}
    (done : game.readMsgFromServer answer = .ok game') :
    ∃ buf msgs quit, game' = { game with
      buf := buf
      fromServer := game.fromServer ++ msgs
      quitFlag := quit
      line := { game.line with read := game.line.read ++ msgs } } := by
  obtain ⟨answered, _, rest⟩ := bind_ok done
  obtain ⟨err, buf⟩ := answered
  dsimp only at rest
  split_ifs at rest
  · obtain rfl := Except.ok.inj rest
    exact ⟨_, _, _, rfl⟩
  · obtain rfl := Except.ok.inj rest
    refine ⟨buf, [], game.quitFlag || decide (err = .connBroken), ?_⟩
    rw [List.append_nil, List.append_nil]

theorem writeMsgForServer_plays (game : BattleshipGame) (results : List Int) :
    game.Plays [] (game.writeMsgForServer results) := by
  obtain ⟨read, more, kept, ordered⟩ := Line.writeLoop_wrote game.line game.toServer results
  refine ⟨⟨[], .nil game, ?_, fun same => ?_⟩, ?_, more, fun same => ?_⟩
  · rw [List.append_nil]
    exact kept
  · obtain ⟨rest, wrote, _⟩ := ordered same
    rw [List.append_nil, ← wrote]
    exact (congrArg _ rest).trans (List.append_nil _)
  · exact read.trans (List.append_nil _).symm
  · obtain ⟨_, wrote, bytes⟩ := ordered same
    exact ⟨game.toServer, wrote, bytes⟩

theorem processFdActions_plays (idle : game.fromServer = []) {turn : Turn}
    (done : game.processFdActions turn = .ok game') :
    ∃ as, game.Plays as game' ∧ game'.fromServer = [] := by
  obtain ⟨game₁, first, last⟩ := bind_ok done
  have read : ∃ buf msgs quit, game₁ = { game with
      buf := buf
      fromServer := msgs
      quitFlag := quit
      line := { game.line with read := game.line.read ++ msgs } } := by
    cases answered : turn.readable with
    | none =>
        rw [answered] at first
        obtain rfl := Except.ok.inj first
        refine ⟨game.buf, [], game.quitFlag, ?_⟩
        rw [List.append_nil, ← idle]
    | some answer =>
        rw [answered] at first
        obtain ⟨buf, msgs, quit, rfl⟩ := readMsgFromServer_spec (mapError_ok first)
        exact ⟨buf, msgs, quit, by rw [idle, List.nil_append]⟩
  obtain ⟨buf, msgs, quit, rfl⟩ := read
  obtain ⟨as, ui, asked, same, does, all⟩ := processMsgs_does { game with
    buf := buf
    fromServer := []
    quitFlag := quit
    line := { game.line with read := game.line.read ++ msgs } } msgs turn.clock
  dsimp only [processMsgFromServer] at last
  rw [all] at last
  have plays : game.Plays as { game with
      buf := buf
      fromServer := []
      quitFlag := quit
      line := { game.line with read := game.line.read ++ msgs }
      interface := ui
      toServer := game.toServer ++ asked } := by
    apply Plays.of_line
    · exact does
    · rw [same]
    · rfl
  cases answered : turn.writable with
  | none =>
      rw [answered] at last
      obtain rfl := Except.ok.inj last
      exact ⟨as, plays, rfl⟩
  | some results =>
      rw [answered] at last
      obtain rfl := Except.ok.inj last
      have both := plays.trans (writeMsgForServer_plays _ results)
      rw [List.append_nil] at both
      exact ⟨as, both, rfl⟩

theorem turn_plays (idle : game.fromServer = []) {turn : Turn} (done : game.turn turn = .ok game') :
    ∃ as, game.Plays as game' ∧ game'.fromServer = [] := by
  obtain ⟨key, server, _⟩ := processKey_plays game turn.key
  unfold BattleshipGame.turn processSelectResult at done
  dsimp only at done
  split_ifs at done
  · obtain rfl := Except.ok.inj done
    exact ⟨_, key, server.trans idle⟩
  · obtain ⟨as, plays, idle'⟩ := processFdActions_plays (server.trans idle) done
    exact ⟨_, key.trans plays, idle'⟩

end BattleshipGame
end Battleship
