import Battleship.PlayerClient
import Battleship.Screens

/-! From the server to the screen and from the keys to the queue for the server, through both
processes of the client, whatever turns they take. -/
namespace Battleship

open Runs Framing

namespace PlayerClient

variable {player player' : PlayerClient}

/-- What every run keeps. The messages under way are accounted for as long as every write on
the socket pair has succeeded. -/
structure Joined (clientFd : Nat) (player : PlayerClient) : Prop where
  ui : ∃ as, (BattleshipGame.init clientFd).Plays as player.ui
  uiIdle : player.ui.fromServer = []
  relay : ∃ serverFd interfaceFd heard asked told events,
    (ClientServer.init serverFd interfaceFd).Passes heard asked told events player.relay
  relayIdle : player.relay.Idle
  down : player.relay.line.failed = 0 → Flow player.ui.reader player.relay.line.wrote player.toUi
  up : player.ui.line.failed = 0 → Flow player.relay.reader player.ui.line.wrote player.toRelay

theorem init_joined (clientFd : Nat) (serverFd : Int) (interfaceFd : Nat) :
    (init clientFd serverFd interfaceFd).Joined clientFd := by
  constructor
  · refine ⟨[], ?_⟩
    apply BattleshipGame.Plays.of_line
    · exact .nil _
    · rfl
    · rfl
  · rfl
  · exact ⟨serverFd, interfaceFd, [], [], [], [], .refl _⟩
  · exact ⟨rfl, rfl⟩
  · exact fun _ => flow_init
  · exact fun _ => flow_init

theorem drop_new {bytes bytes' : List UInt8} {new : List Message}
    (same : bytes' = bytes ++ encodings new) : bytes'.drop bytes.length = encodings new := by
  rw [same, List.drop_left]

theorem flow_reads {fd : Nat} {chunk pipe : List UInt8} {reader reader' : Reader}
    {sent : List Message} (flow : Flow reader sent pipe) (reads : Reads fd chunk reader reader')
    (next : chunk <+: pipe) (room : chunk.length ≤ buffSize - reader.buffer.buf.length)
    (resumes : chunk ≠ [] → Resumes reader chunk) :
    Flow reader' sent (pipe.drop chunk.length) := by
  unfold Reads at reads
  split_ifs at reads with nothing
  · rw [reads, nothing]
    exact flow
  · exact flow.read nothing next room (resumes nothing) reads

theorem step_joined {clientFd : Nat} (joined : player.Joined clientFd) {e : Event}
    (good : player.GoesOn e) (done : player.step e = .ok player') : player'.Joined clientFd := by
  obtain ⟨⟨as, plays⟩, uiIdle, ⟨serverFd, interfaceFd, heard, asked, told, events, passes⟩,
    relayIdle, down, up⟩ := joined
  cases e with
  | ui turn =>
      unfold step at done
      dsimp only at done
      split_ifs at done with can
      obtain ⟨lasts, next, room⟩ := can
      obtain ⟨ui, first, last⟩ := bind_ok done
      obtain rfl := Except.ok.inj last
      replace first := mapError_ok first
      obtain ⟨as', plays', uiIdle'⟩ := BattleshipGame.turn_plays uiIdle first
      obtain ⟨reads, _⟩ := BattleshipGame.turn_reads lasts room first
      refine ⟨⟨_, plays.trans plays'⟩, uiIdle', ⟨_, _, _, _, _, _, passes⟩, relayIdle,
        fun whole => flow_reads (down whole) reads next room good, fun whole => ?_⟩
      have more := plays'.more
      dsimp only at whole ⊢
      obtain ⟨new, wrote, bytes⟩ := plays'.bytes (by omega)
      rw [drop_new bytes, wrote]
      exact (up (by omega)).write new
  | relay turn =>
      unfold step at done
      dsimp only at done
      split_ifs at done with can
      obtain ⟨lasts, next, room⟩ := can
      obtain ⟨relay, first, last⟩ := bind_ok done
      obtain rfl := Except.ok.inj last
      replace first := mapError_ok first
      obtain ⟨heard', asked', told', events', passes', relayIdle'⟩ :=
        ClientServer.turn_passes relayIdle first
      have reads := ClientServer.turn_reads relayIdle lasts room first
      refine ⟨⟨_, plays⟩, uiIdle, ⟨_, _, _, _, _, _, passes.trans passes'⟩, relayIdle',
        fun whole => ?_, fun whole => flow_reads (up whole) reads next room good⟩
      have more := passes'.more
      dsimp only at whole ⊢
      obtain ⟨_, new, wrote, bytes⟩ := passes'.ordered (by omega)
      rw [drop_new bytes, wrote]
      exact (down (by omega)).write new

theorem run_joined {clientFd interfaceFd : Nat} {serverFd : Int} {es : List Event}
    (goesOn : AllSteps step GoesOn (init clientFd serverFd interfaceFd) es)
    (done : run (init clientFd serverFd interfaceFd) es = .ok player) : player.Joined clientFd := by
  revert goesOn
  refine run_history step (fun es player => AllSteps step GoesOn
    (init clientFd serverFd interfaceFd) es → player.Joined clientFd) ?_ ?_ done
  · exact fun _ => init_joined clientFd serverFd interfaceFd
  · intro es s e s' before ih stepped goesOn
    obtain ⟨earlier, good⟩ := (AllSteps.snoc step before).mp goesOn
    exact step_joined (ih earlier) good stepped

end PlayerClient

theorem BattleshipGame.Plays.from_init {clientFd : Nat} {as : List Act} {game : BattleshipGame}
    (plays : (BattleshipGame.init clientFd).Plays as game) :
    game.interface = ((BattleshipGame.init clientFd).acts as).interface ∧
      game.line.read = as.filterMap Act.msg ∧
      (game.line.failed = 0 →
        game.line.wrote ++ game.toServer = ((BattleshipGame.init clientFd).acts as).toServer) := by
  obtain ⟨⟨asked, does, _, ordered⟩, reads, _⟩ := plays
  rw [does _ rfl]
  exact ⟨rfl, reads, fun whole => ordered whole⟩

theorem ClientServer.Passes.from_init {serverFd : Int} {interfaceFd : Nat}
    {heard asked told : List Message} {events : List Outgoing.Event} {cs : ClientServer}
    (passes : (ClientServer.init serverFd interfaceFd).Passes heard asked told events cs) :
    ((cs.line.wrote ++ cs.toInterface).filter Message.isNews).Perm
        (cs.heard.filter Message.isNews) ∧
      (cs.line.failed = 0 →
        (cs.line.wrote ++ cs.toInterface).filter Message.isNews = cs.heard.filter Message.isNews ∧
          ((∀ msg ∈ cs.heard, msg.isStatus = false) →
            lastStatus false (cs.line.wrote ++ cs.toInterface) = cs.hasServerConnection)) := by
  obtain ⟨hears, _, _, _, news, status, _, kept, ordered⟩ := passes
  have all : cs.heard = heard := hears
  rw [all]
  constructor
  · rw [← news]
    exact kept.filter _
  · intro whole
    rw [(ordered whole).1]
    exact ⟨news, status⟩

theorem act_hasSeverConn (game : BattleshipGame) (a : Act) :
    (game.act a).interface.hasSeverConn =
      lastStatus game.interface.hasSeverConn ([a].filterMap Act.msg) := by
  cases a with
  | key key =>
      have step := BattleshipGame.pressed game key
      change (game.processKey key).interface.hasSeverConn = game.interface.hasSeverConn
      generalize game.processKey key = game' at step ⊢
      cases step <;> rfl
  | message msg read =>
      obtain ⟨id, body⟩ := msg
      cases body with
      | gameField field isOwnField => cases isOwnField <;> rfl
      | startTurn endTime isOwn => cases isOwn <;> rfl
      | stopTurn isOwn => cases isOwn <;> rfl
      | stopPreparation =>
          change (game.processStopPreparationMsg).interface.hasSeverConn =
            game.interface.hasSeverConn
          unfold BattleshipGame.processStopPreparationMsg NcursesInterface.stopPreparationMode
          split_ifs <;> rfl
      | _ => rfl

theorem acts_hasSeverConn (clientFd : Nat) (as : List Act) :
    ((BattleshipGame.init clientFd).acts as).interface.hasSeverConn =
      lastStatus false (as.filterMap Act.msg) := by
  induction as using List.reverseRecOn with
  | nil => rfl
  | append_singleton as a ih =>
      rw [BattleshipGame.acts_snoc, act_hasSeverConn, ih, List.filterMap_append, lastStatus_append]

theorem heard_eq (as : List Act) : heard as = (as.filterMap Act.msg).map Message.body := by
  rw [heard, List.map_filterMap]
  refine List.filterMap_congr fun a _ => ?_
  cases a <;> rfl

theorem loud_news (msgs : List Message) :
    Board.loud ((msgs.filter Message.isNews).map Message.body) =
      Board.loud (msgs.map Message.body) := by
  unfold Board.loud
  rw [List.filter_map, List.filter_map, List.filter_filter]
  refine congrArg (List.map Message.body) (List.filter_congr fun msg _ => ?_)
  obtain ⟨id, body⟩ := msg
  cases body <;> rfl

namespace PlayerClient

/-- Nothing is on its way to the interface process. -/
structure AllShown (player : PlayerClient) : Prop where
  pipe : player.toUi = []
  queue : player.relay.toInterface = []
  buffer : player.ui.buf.toExtractMsg = none

structure AllAsked (player : PlayerClient) : Prop where
  pipe : player.toRelay = []
  queue : player.ui.toServer = []
  buffer : player.relay.bufFromInterface.toExtractMsg = none

theorem flow_finished {reader : Reader} {sent : List Message} {pipe : List UInt8}
    (flow : Flow reader sent pipe) (empty : pipe = []) (fresh : reader.buffer.toExtractMsg = none) :
    sent = reader.extracted := by
  obtain ⟨ahead, rfl, midway, _⟩ := flow
  rw [(midway.finished empty).mp fresh, List.append_nil]

theorem flow_extracted {reader : Reader} {sent : List Message} {pipe : List UInt8}
    (flow : Flow reader sent pipe) : reader.extracted <+: sent := by
  obtain ⟨ahead, rfl, _⟩ := flow
  exact List.prefix_append _ _

/-- The processes of a client in any state of a run in which no write on their socket pair has
failed and no read has spoilt a message. -/
structure Conveys (clientFd : Nat) (player : PlayerClient) (as : List Act) : Prop where
  interface : player.ui.interface = ((BattleshipGame.init clientFd).acts as).interface
  taken : as.filterMap Act.msg = player.ui.line.read
  news : player.ui.line.read.filter Message.isNews <+: player.relay.heard.filter Message.isNews
  requests : player.relay.line.read <+: ((BattleshipGame.init clientFd).acts as).toServer
  shown : player.AllShown →
    player.ui.line.read.filter Message.isNews = player.relay.heard.filter Message.isNews ∧
      ((∀ msg ∈ player.relay.heard, msg.isStatus = false) →
        player.ui.interface.hasSeverConn = player.relay.hasServerConnection)
  asked : player.AllAsked →
    player.relay.line.read = ((BattleshipGame.init clientFd).acts as).toServer

theorem Joined.conveys {player : PlayerClient} {clientFd : Nat} (joined : player.Joined clientFd)
    (ui : player.ui.line.failed = 0) (relay : player.relay.line.failed = 0) :
    ∃ as, player.Conveys clientFd as := by
  obtain ⟨⟨as, plays⟩, _, ⟨_, _, _, _, _, _, passes⟩, _, down, up⟩ := joined
  obtain ⟨interface, reads, ordered⟩ := plays.from_init
  obtain ⟨_, kept⟩ := passes.from_init
  obtain ⟨news, status⟩ := kept relay
  have down := down relay
  have up := up ui
  refine ⟨as, interface, reads.symm, ?_, ?_, fun all => ?_, fun all => ?_⟩
  · rw [← news]
    exact ((flow_extracted down).trans (List.prefix_append _ _)).filter _
  · rw [← ordered ui]
    exact (flow_extracted up).trans (List.prefix_append _ _)
  · have sent : player.relay.line.wrote = player.ui.line.read :=
      flow_finished down all.pipe all.buffer
    rw [all.queue, List.append_nil, sent] at news status
    refine ⟨news, fun none => ?_⟩
    rw [← status none, interface, reads]
    exact acts_hasSeverConn clientFd as
  · have sent : player.ui.line.wrote = player.relay.line.read :=
      flow_finished up all.pipe all.buffer
    rw [← ordered ui, all.queue, List.append_nil, sent]

/-- Nothing is pending in either buffer. -/
def fresh (player : PlayerClient) : Bool :=
  player.ui.buf.toExtractMsg.isNone && player.relay.bufFromInterface.toExtractMsg.isNone

theorem goesOn_of_fresh (player : PlayerClient) (e : Event) (fresh : player.fresh = true) :
    player.GoesOn e := by
  obtain ⟨ui, relay⟩ := Bool.and_eq_true_iff.mp fresh
  cases e with
  | ui turn =>
      intro _ frag pending
      cases (Option.isNone_iff_eq_none.mp ui).symm.trans pending
  | relay turn =>
      intro _ frag pending
      cases (Option.isNone_iff_eq_none.mp relay).symm.trans pending

end PlayerClient

/-- Whatever the server sends and however reads and writes turn out, what the client process has
heard for the interface is written to it or still queued, each message once; in the order in
which it was heard as long as no write to the interface fails, and then the last word on the
connection is right. -/
theorem relay_passes_on (serverFd : Int) (interfaceFd : Nat) {turns : List ClientServer.Turn}
    {cs : ClientServer} (done : (ClientServer.init serverFd interfaceFd).run turns = .ok cs) :
    ((cs.line.wrote ++ cs.toInterface).filter Message.isNews).Perm
        (cs.heard.filter Message.isNews) ∧
      (cs.line.failed = 0 →
        (cs.line.wrote ++ cs.toInterface).filter Message.isNews = cs.heard.filter Message.isNews ∧
          ((∀ msg ∈ cs.heard, msg.isStatus = false) →
            lastStatus false (cs.line.wrote ++ cs.toInterface) = cs.hasServerConnection)) := by
  obtain ⟨_, _, _, _, passes, _⟩ := ClientServer.run_passes ⟨rfl, rfl⟩ done
  exact passes.from_init

/-- The interface asks for a connection, and the server sends two messages. -/
def relayTurns : List ClientServer.Turn :=
  [⟨1, none, none, some (some (encodings [Message.new .serverConnReq])), none, 5, fun _ => 0⟩,
    ⟨1, some (some (encodings [⟨7, .stopPreparation⟩, ⟨-1, .receipt 3⟩])), none, none,
      some [14, -1], 5, fun _ => 0⟩]

theorem relayTurns_run : ∃ cs, (ClientServer.init 5 4).run relayTurns = .ok cs ∧
    cs.heard = [⟨7, .stopPreparation⟩, ⟨-1, .receipt 3⟩] ∧
    cs.line.read = [Message.new .serverConnReq] := by
  obtain ⟨cs, done, shown⟩ := ok_of_map (fun cs : ClientServer => (cs.heard, cs.line.read))
    (show ((ClientServer.init 5 4).run relayTurns).map _ =
      .ok ([⟨7, .stopPreparation⟩, ⟨-1, .receipt 3⟩], [Message.new .serverConnReq]) by
        decide +kernel)
  exact ⟨cs, done, congrArg Prod.fst shown, congrArg Prod.snd shown⟩

theorem relay_passes_on_turns : ∃ cs, (ClientServer.init 5 4).run relayTurns = .ok cs ∧
    ((cs.line.wrote ++ cs.toInterface).filter Message.isNews).Perm [⟨7, .stopPreparation⟩] := by
  obtain ⟨cs, done, heard, _⟩ := relayTurns_run
  have passed := (relay_passes_on 5 4 done).1
  rw [heard] at passed
  exact ⟨cs, done, passed⟩

/-- What the client process does with its queue for the server and its delivery control is a
run of these: one receipt for each message heard, whether the connection holds or not, the
player's requests in the order in which they were read, and a look-up for each receipt. -/
theorem relay_answers (serverFd : Int) (interfaceFd : Nat) {turns : List ClientServer.Turn}
    {cs : ClientServer} (done : (ClientServer.init serverFd interfaceFd).run turns = .ok cs) :
    ∃ events, Outgoing.run (Outgoing.init 3 10) events = .ok cs.toServer ∧
      ClientServer.Answers cs.heard cs.line.read events := by
  obtain ⟨heard, asked, _, events, passes, _⟩ := ClientServer.run_passes ⟨rfl, rfl⟩ done
  have hears : cs.heard = heard := passes.hears
  have asks : cs.line.read = asked := passes.asks
  rw [hears, asks]
  exact ⟨events, passes.toServer, passes.answers⟩

theorem relay_answers_turns : ∃ cs events, (ClientServer.init 5 4).run relayTurns = .ok cs ∧
    Outgoing.run (Outgoing.init 3 10) events = .ok cs.toServer ∧
    ClientServer.Answers [⟨7, .stopPreparation⟩, ⟨-1, .receipt 3⟩] [Message.new .serverConnReq]
      events := by
  obtain ⟨cs, done, heard, asked⟩ := relayTurns_run
  obtain ⟨events, ran, answers⟩ := relay_answers 5 4 done
  rw [heard, asked] at answers
  exact ⟨cs, events, done, ran, answers⟩

/-- The interface process asks for a connection; when it is there, the client process reads
some messages of the server and passes them on. -/
def sessionRun (msgs : List Message) : List PlayerClient.Event :=
  let told := Message.new (.serverConnStatus true) :: msgs.filter Message.redirected
  [.ui ⟨.c, 1, none, some [13], fun _ => ⟨0, 0⟩⟩,
    .relay ⟨1, none, none, some (some (encodings [Message.new .serverConnReq])), none, 5, fun _ => 0⟩,
    .relay ⟨1, some (some (encodings msgs)), none, none,
      some (told.map fun msg => (getTypeDataSize msg.type : Int)), 5, fun _ => 0⟩,
    .ui ⟨.err, 1, some (some (encodings told)), none, fun _ => ⟨0, 0⟩⟩]

/-- Two players are in a session, and the second one is to prepare his field. -/
def preparation : Server := Server.after (opening.take 4)

theorem preparation_reachable : preparation.Reachable := Server.reachable_after (by decide +kernel)

theorem preparation_session : (preparation.sessions 0).players 1 = some 1 ∧
    (preparation.sessions 0).modeFor 1 = some .preparation := by
  decide +kernel

theorem sessionRun_preparation :
    AllSteps PlayerClient.step PlayerClient.GoesOn (PlayerClient.init 3 5 4)
        (sessionRun (preparation.toSendMsg 1)) ∧
      ∃ player, PlayerClient.run (PlayerClient.init 3 5 4)
          (sessionRun (preparation.toSendMsg 1)) = .ok player ∧
        player.ui.line.failed = 0 ∧ player.relay.line.failed = 0 ∧ player.AllShown ∧
        player.relay.heard = preparation.toSendMsg 1 := by
  constructor
  · refine allSteps_of_check PlayerClient.step PlayerClient.goesOn_of_fresh ?_
    decide +kernel
  · obtain ⟨player, done, shown⟩ := ok_of_map
      (fun player : PlayerClient => (player.ui.line.failed + player.relay.line.failed, player.toUi,
        player.relay.toInterface, player.ui.buf.toExtractMsg.isSome, player.relay.heard))
      (show (PlayerClient.run (PlayerClient.init 3 5 4)
          (sessionRun (preparation.toSendMsg 1))).map _ =
        .ok (0, [], [], false, preparation.toSendMsg 1) by decide +kernel)
    simp only [Prod.mk.injEq] at shown
    obtain ⟨failed, pipe, queue, buffer, heard⟩ := shown
    refine ⟨player, done, by omega, by omega, ⟨pipe, queue, ?_⟩, heard⟩
    exact Option.isNone_iff_eq_none.mp (Option.isSome_eq_false_iff.mp buffer)

/-- However the two processes take their turns, the screen is what the player's keys and the
messages that were read make of it; these are in order and without gaps the first of those
that the client process heard, and the requests that it read are the first of those that the
player made. When nothing is under way any more they are all of them. -/
theorem client_conveys {clientFd interfaceFd : Nat} {serverFd : Int}
    {es : List PlayerClient.Event} {player : PlayerClient}
    (goesOn : AllSteps PlayerClient.step PlayerClient.GoesOn
      (PlayerClient.init clientFd serverFd interfaceFd) es)
    (done : (PlayerClient.init clientFd serverFd interfaceFd).run es = .ok player)
    (ui : player.ui.line.failed = 0) (relay : player.relay.line.failed = 0) :
    ∃ as, player.Conveys clientFd as :=
  (PlayerClient.run_joined goesOn done).conveys ui relay

theorem client_conveys_preparation : ∃ player as,
    PlayerClient.run (PlayerClient.init 3 5 4)
        (sessionRun (preparation.toSendMsg 1)) = .ok player ∧
      player.Conveys 3 as := by
  obtain ⟨goesOn, player, done, ui, relay, _⟩ := sessionRun_preparation
  obtain ⟨as, conveys⟩ := client_conveys goesOn done ui relay
  exact ⟨player, as, done, conveys⟩

/-- From the server's session to the player's screen: when the client process has heard what was
queued for the player and nothing is under way any more, the screen shows the phase of the
session and whose turn it is, and the other player's field as far as he may see it. -/
theorem client_shows_session {srv : Server} (reachable : srv.Reachable) {s : SessionId}
    {i : PlayerIdx} {c : ClientId} (seated : (srv.sessions s).players i = some c)
    {clientFd interfaceFd : Nat} {serverFd : Int} {es : List PlayerClient.Event}
    {player : PlayerClient}
    (goesOn : AllSteps PlayerClient.step PlayerClient.GoesOn
      (PlayerClient.init clientFd serverFd interfaceFd) es)
    (done : (PlayerClient.init clientFd serverFd interfaceFd).run es = .ok player)
    (ui : player.ui.line.failed = 0) (relay : player.relay.line.failed = 0)
    (caught : srv.sent c <:+ Board.loud (player.relay.heard.map Message.body))
    (all : player.AllShown) :
    (∀ mode, (srv.sessions s).modeFor i = some mode →
        player.ui.interface.mode = mode ∧
            player.ui.interface.cursorShown = Session.acting mode ∨
          mode = .ownTurn ∧ player.ui.interface.mode = .wait ∧
            player.ui.interface.cursorShown = false) ∧
      ((srv.sessions s).Playing →
        (Board.after (player.relay.heard.map Message.body)).enemy ≠ none →
        player.ui.interface.enemyField =
          ((srv.sessions s).fields (getEnemyIdx i)).getForEnemy) := by
  obtain ⟨as, conveys⟩ := (PlayerClient.run_joined goesOn done).conveys ui relay
  have same : Board.loud (heard as) = Board.loud (player.relay.heard.map Message.body) := by
    rw [heard_eq, conveys.taken, ← loud_news, (conveys.shown all).1, loud_news]
  rw [← same] at caught
  have knows := knows_of_caught reachable seated caught
  have reflects := acts_reflect clientFd as
  rw [← conveys.interface] at reflects
  constructor
  · exact fun mode phase => knows.mode reflects phase
  · intro playing sent
    rw [← Board.after_loud, ← same, Board.after_loud] at sent
    exact knows.enemyField reflects playing sent

theorem client_shows_session_preparation : ∃ player,
    PlayerClient.run (PlayerClient.init 3 5 4) (sessionRun (preparation.toSendMsg 1)) =
        .ok player ∧
      player.ui.interface.mode = .preparation ∧ player.ui.interface.cursorShown = true := by
  obtain ⟨seated, phase⟩ := preparation_session
  obtain ⟨goesOn, player, done, ui, relay, all, heard⟩ := sessionRun_preparation
  have caught : preparation.sent 1 <:+ Board.loud (player.relay.heard.map Message.body) := by
    rw [heard]
    exact List.suffix_rfl
  refine ⟨player, done, ?_⟩
  rcases (client_shows_session preparation_reachable seated goesOn done ui relay caught all).1 _
    phase with shown | ⟨own, _⟩
  · exact shown
  · cases own

end Battleship
