import Battleship.ClientServer
import Battleship.Stream

/-! What goes through the client process, turn after turn: nothing that the server sends for
the interface is lost or doubled on the way, every message of the server is acknowledged
once, the player's requests reach the queue for the server in their order, and the interface
is told of every change of the connection. -/
namespace Battleship

open Runs Framing

namespace Line

/-- What was written whole and what is left is what was there. As long as nothing fails, all
of it was written, in its order. -/
structure Wrote (line : Line) (queue : List Message) (line' : Line) (rest : List Message) :
    Prop where
  read : line'.read = line.read
  more : line.failed ≤ line'.failed
  kept : (line'.wrote ++ rest).Perm (line.wrote ++ queue)
  ordered : line'.failed = line.failed →
    rest = [] ∧ line'.wrote = line.wrote ++ queue ∧
      line'.bytes = line.bytes ++ stream Message.getData queue

theorem writeLoop_wrote (line : Line) (queue : List Message) (results : List Int) :
    line.Wrote queue (line.writeLoop queue results).1 (line.writeLoop queue results).2 := by
  induction queue generalizing line results with
  | nil => exact ⟨rfl, le_rfl, .refl _, fun _ => ⟨rfl, by simp [writeLoop], by simp [writeLoop]⟩⟩
  | cons msg queue ih =>
      rw [writeLoop]
      dsimp only
      split_ifs with whole
      · obtain ⟨read, more, kept, ordered⟩ := ih _ results.tail
        refine ⟨read, more, kept.trans (by simp), fun same => ?_⟩
        obtain ⟨rest, wrote, bytes⟩ := ordered same
        refine ⟨rest, by simpa using wrote, bytes.trans ?_⟩
        have all : msg.getData.take (results.headD (-1)).toNat = msg.getData := by
          rw [whole, Int.toNat_natCast, ← msg.getData_length, List.take_length]
        dsimp only
        rw [all, stream_cons, List.append_assoc]
      · refine ⟨rfl, Nat.le_succ _, ?_, fun same => absurd same (Nat.succ_ne_self _)⟩
        exact List.Perm.append_left _ (List.perm_append_singleton msg queue)

end Line

/-- The messages of the server that are passed on to the interface. -/
def Message.redirected (msg : Message) : Bool :=
  match msg.body with
  | .gameSessionReq | .serverConnStatusReq | .gameMove _ _ | .serverConnReq => false
  | .receipt _ => false
  | _ => true

/-- The requests of the player that are passed on to the server. -/
def Message.requested (msg : Message) : Bool :=
  match msg.body with
  | .gameSessionReq | .gameField _ _ | .gameMove _ _ => true
  | _ => false

def Message.isStatus (msg : Message) : Bool := decide (msg.type = .serverConnStatus)

def Message.isReceipt (msg : Message) : Bool := decide (msg.type = .receipt)

/-- Passed on, and not by its type one of the messages that the client process makes. -/
def Message.isNews (msg : Message) : Bool := msg.redirected && !msg.isStatus

/-- What the messages say of the connection, where nothing else was said before. -/
def lastStatus (connected : Bool) (msgs : List Message) : Bool :=
  msgs.foldl (fun connected msg =>
    match msg.body with
    | .serverConnStatus connected => connected
    | _ => connected) connected

theorem lastStatus_append (connected : Bool) (msgs msgs' : List Message) :
    lastStatus connected (msgs ++ msgs') = lastStatus (lastStatus connected msgs) msgs' :=
  List.foldl_append

theorem lastStatus_of_none (connected : Bool) {msgs : List Message}
    (none : ∀ msg ∈ msgs, msg.isStatus = false) : lastStatus connected msgs = connected := by
  induction msgs with
  | nil => rfl
  | cons msg msgs ih =>
      have first := none msg List.mem_cons_self
      have step : lastStatus connected (msg :: msgs) = lastStatus connected msgs := by
        obtain ⟨id, body⟩ := msg
        cases body with
        | serverConnStatus => cases first
        | _ => rfl
      rw [step]
      exact ih fun other member => none other (List.mem_cons_of_mem _ member)

namespace Outgoing.Event

def sent : Outgoing.Event → Option Message
  | .send msg => some msg
  | _ => none

def checked : Outgoing.Event → Option Int64
  | .receipt reqMsgId => some reqMsgId
  | _ => none

def isOthers : Outgoing.Event → Bool
  | .others _ => true
  | _ => false

end Outgoing.Event

namespace ClientServer

/-- What is done to the messages for the server when a message has come from it. -/
def answer (msg : Message) : Outgoing.Event :=
  match msg.body.receiptFor with
  | some reqMsgId => .receipt reqMsgId
  | none => .send (Message.new (.receipt msg.id))

/-- Of the messages for the server: one receipt for each message heard and each request of the
player, in their orders, and one look-up for each receipt heard. -/
structure Answers (heard asked : List Message) (events : List Outgoing.Event) : Prop where
  receipts : (events.filterMap Outgoing.Event.sent).filter Message.isReceipt =
    (heard.filter fun msg => !msg.isReceipt).map fun msg => Message.new (.receipt msg.id)
  requests : ((events.filterMap Outgoing.Event.sent).filter fun msg => !msg.isReceipt) =
    asked.filter Message.requested
  checks : events.filterMap Outgoing.Event.checked = heard.filterMap fun msg => msg.body.receiptFor
  alone : ∀ e ∈ events, e.isOthers = false

theorem Answers.nil : Answers [] [] [] := by
  constructor
  · rfl
  · rfl
  · rfl
  · exact fun e member => absurd member List.not_mem_nil

theorem Answers.append {heard heard' asked asked' : List Message}
    {events events' : List Outgoing.Event} (first : Answers heard asked events)
    (next : Answers heard' asked' events') :
    Answers (heard ++ heard') (asked ++ asked') (events ++ events') := by
  obtain ⟨receipts, requests, checks, alone⟩ := first
  obtain ⟨receipts', requests', checks', alone'⟩ := next
  constructor
  · rw [List.filterMap_append, List.filter_append, List.filter_append, List.map_append, receipts,
      receipts']
  · rw [List.filterMap_append, List.filter_append, List.filter_append, requests, requests']
  · rw [List.filterMap_append, List.filterMap_append, checks, checks']
  · exact List.forall_mem_append.mpr ⟨alone, alone'⟩

theorem Answers.write (results : List (Int × Int)) (curTime : Int) :
    Answers [] [] [.write results curTime] := by
  constructor
  · rfl
  · rfl
  · rfl
  · exact List.forall_mem_singleton.mpr rfl

theorem Answers.answer (msg : Message) : Answers [msg] [] [answer msg] := by
  obtain ⟨id, body⟩ := msg
  cases body with
  | receipt =>
      constructor
      · rfl
      · rfl
      · rfl
      · exact List.forall_mem_singleton.mpr rfl
  | _ =>
      constructor
      · rfl
      · rfl
      · rfl
      · exact List.forall_mem_singleton.mpr rfl

theorem Answers.answers (msgs : List Message) : Answers msgs [] (msgs.map ClientServer.answer) := by
  induction msgs with
  | nil => exact .nil
  | cons msg msgs ih => exact (Answers.answer msg).append ih

def requestEvents (msgs : List Message) : List Outgoing.Event :=
  (msgs.filter Message.requested).map Outgoing.Event.send

theorem Answers.of_requests (msgs : List Message) : Answers [] msgs (requestEvents msgs) := by
  have sent : (requestEvents msgs).filterMap Outgoing.Event.sent =
      msgs.filter Message.requested := by
    unfold requestEvents
    rw [List.filterMap_map]
    exact List.filterMap_some
  have plain (msg : Message) (member : msg ∈ msgs.filter Message.requested) :
      msg.isReceipt = false := by
    have request := (List.mem_filter.mp member).2
    obtain ⟨id, body⟩ := msg
    cases body with
    | receipt => cases request
    | _ => rfl
  constructor
  · rw [sent]
    exact List.filter_eq_nil_iff.mpr fun msg member => by simp [plain msg member]
  · rw [sent]
    exact List.filter_eq_self.mpr fun msg member => by simp [plain msg member]
  · unfold requestEvents
    rw [List.filterMap_map]
    exact List.filterMap_eq_nil_iff.mpr fun msg _ => rfl
  · intro e member
    obtain ⟨msg, _, rfl⟩ := List.mem_map.mp member
    rfl

section Steps

variable {cs cs' cs'' : ClientServer}

structure Idle (cs : ClientServer) : Prop where
  fromServer : cs.fromServer = []
  fromInterface : cs.fromInterface = []

structure Aside (cs cs' : ClientServer) : Prop where
  fromInterface : cs'.fromInterface = cs.fromInterface
  buf : cs'.bufFromInterface = cs.bufFromInterface
  fd : cs'.interfaceFd = cs.interfaceFd

theorem Aside.refl (cs : ClientServer) : cs.Aside cs := ⟨rfl, rfl, rfl⟩

theorem Aside.trans (first : cs.Aside cs') (next : cs'.Aside cs'') : cs.Aside cs'' :=
  ⟨next.fromInterface.trans first.fromInterface, next.buf.trans first.buf,
    next.fd.trans first.fd⟩

/-- What has gone through from one moment to a later one: `told` was queued for the
interface. -/
structure Passes (cs : ClientServer) (heard asked told : List Message)
    (events : List Outgoing.Event) (cs' : ClientServer) : Prop where
  hears : cs'.heard = cs.heard ++ heard
  asks : cs'.line.read = cs.line.read ++ asked
  toServer : Outgoing.run cs.toServer events = .ok cs'.toServer
  answers : Answers heard asked events
  news : told.filter Message.isNews = heard.filter Message.isNews
  status : (∀ msg ∈ heard, msg.isStatus = false) →
    lastStatus cs.hasServerConnection told = cs'.hasServerConnection
  more : cs.line.failed ≤ cs'.line.failed
  kept : (cs'.line.wrote ++ cs'.toInterface).Perm (cs.line.wrote ++ cs.toInterface ++ told)
  ordered : cs'.line.failed = cs.line.failed →
    cs'.line.wrote ++ cs'.toInterface = cs.line.wrote ++ cs.toInterface ++ told ∧
      ∃ new, cs'.line.wrote = cs.line.wrote ++ new ∧
        cs'.line.bytes = cs.line.bytes ++ stream Message.getData new

theorem Passes.trans {heard heard' asked asked' told told' : List Message}
    {events events' : List Outgoing.Event} (first : cs.Passes heard asked told events cs')
    (next : cs'.Passes heard' asked' told' events' cs'') :
    cs.Passes (heard ++ heard') (asked ++ asked') (told ++ told') (events ++ events') cs'' := by
  constructor
  · rw [next.hears, first.hears, List.append_assoc]
  · rw [next.asks, first.asks, List.append_assoc]
  · exact (run_append_ok Outgoing.step).mpr ⟨_, first.toServer, next.toServer⟩
  · exact first.answers.append next.answers
  · rw [List.filter_append, List.filter_append, first.news, next.news]
  · intro none
    obtain ⟨here, later⟩ := List.forall_mem_append.mp none
    rw [lastStatus_append, first.status here, next.status later]
  · exact first.more.trans next.more
  · refine next.kept.trans ?_
    rw [← List.append_assoc]
    exact first.kept.append_right told'
  · intro same
    have more := first.more
    have more' := next.more
    obtain ⟨queue, new, wrote, bytes⟩ := first.ordered (by omega)
    obtain ⟨queue', new', wrote', bytes'⟩ := next.ordered (by omega)
    refine ⟨by rw [queue', queue, List.append_assoc], new ++ new', ?_, ?_⟩
    · rw [wrote', wrote, List.append_assoc]
    · rw [bytes', bytes, stream_append, List.append_assoc]

theorem Passes.of_line {heard asked told : List Message} {events : List Outgoing.Event}
    (hears : cs'.heard = cs.heard ++ heard)
    (line : cs'.line = { cs.line with read := cs.line.read ++ asked })
    (toServer : Outgoing.run cs.toServer events = .ok cs'.toServer)
    (answers : Answers heard asked events)
    (news : told.filter Message.isNews = heard.filter Message.isNews)
    (status : (∀ msg ∈ heard, msg.isStatus = false) →
      lastStatus cs.hasServerConnection told = cs'.hasServerConnection)
    (queue : cs'.toInterface = cs.toInterface ++ told) :
    cs.Passes heard asked told events cs' := by
  have all : cs'.line.wrote ++ cs'.toInterface = cs.line.wrote ++ cs.toInterface ++ told := by
    rw [line, queue, List.append_assoc]
  refine ⟨hears, by rw [line], toServer, answers, news, status, by rw [line], ?_, fun _ => ?_⟩
  · rw [all]
  · refine ⟨all, [], ?_, ?_⟩
    · rw [line, List.append_nil]
    · rw [line, stream_nil, List.append_nil]

theorem Passes.refl (cs : ClientServer) : cs.Passes [] [] [] [] cs := by
  apply Passes.of_line
  · exact (List.append_nil _).symm
  · rw [List.append_nil]
  · rfl
  · exact .nil
  · rfl
  · exact fun _ => rfl
  · exact (List.append_nil _).symm

/-- What is done to the messages for the server decides whether there is a next state. -/
theorem processMsg_eq (cs : ClientServer) (msg : Message) :
    cs.processMsg msg = (Outgoing.step cs.toServer (answer msg)).map fun out => { cs with
      toInterface := cs.toInterface ++ [msg].filter Message.redirected, toServer := out } := by
  obtain ⟨id, body⟩ := msg
  cases body with
  | receipt reqMsgId =>
      have same : cs.toInterface ++ [(⟨id, .receipt reqMsgId⟩ : Message)].filter
          Message.redirected = cs.toInterface := List.append_nil _
      rw [same]
      change (cs.processReceiptMsg reqMsgId >>= fun cs' => .ok cs') =
        (cs.toServer.processCheck reqMsgId).map _
      unfold processReceiptMsg
      cases cs.toServer.processCheck reqMsgId <;> rfl
  | gameSessionReq | serverConnStatusReq | gameMove | serverConnReq =>
      simp [processMsg, sendReceipt, answer, Outgoing.step, Body.receiptFor, Message.redirected,
        Message.type, Body.type, Bind.bind, Except.bind, Except.map]
  | _ => rfl

theorem processMsg_spec {msg : Message} (done : cs.processMsg msg = .ok cs') :
    ∃ out, Outgoing.step cs.toServer (answer msg) = .ok out ∧
      cs' = { cs with
        toInterface := cs.toInterface ++ [msg].filter Message.redirected, toServer := out } := by
  rw [processMsg_eq] at done
  obtain ⟨out, stepped, same⟩ := ok_of_map _ done
  exact ⟨out, stepped, same.symm⟩

theorem processMsgs_spec {msgs : List Message} (done : cs.processMsgs msgs = .ok cs') :
    ∃ out, Outgoing.run cs.toServer (msgs.map answer) = .ok out ∧
      cs' = { cs with
        toInterface := cs.toInterface ++ msgs.filter Message.redirected, toServer := out } := by
  induction msgs generalizing cs with
  | nil =>
      obtain rfl := Except.ok.inj done
      exact ⟨_, rfl, by simp⟩
  | cons msg msgs ih =>
      obtain ⟨cs₁, first, rest⟩ := bind_ok done
      obtain ⟨out₁, stepped, rfl⟩ := processMsg_spec first
      obtain ⟨out, ran, rfl⟩ := ih rest
      refine ⟨out, (run_cons_ok Outgoing.step stepped).mpr ran, ?_⟩
      rw [List.append_assoc, ← List.filter_append]
      rfl

theorem readMsgFromServer_spec {answer : Option (List UInt8)} {socket : Int}
    (done : cs.readMsgFromServer answer socket = .ok cs') :
    (∃ buf msgs, cs' = { cs with
        bufFromServer := buf, fromServer := cs.fromServer ++ msgs, heard := cs.heard ++ msgs }) ∨
      ∃ buf, cs' = { cs with bufFromServer := buf }.onBrokenServerConn socket := by
  unfold readMsgFromServer at done
  split_ifs at done
  · obtain rfl := Except.ok.inj done
    exact .inl ⟨cs.bufFromServer, [], by simp⟩
  · obtain ⟨answered, _, rest⟩ := bind_ok done
    obtain ⟨err, buf⟩ := answered
    dsimp only at rest
    split_ifs at rest
    · obtain rfl := Except.ok.inj rest
      exact .inl ⟨_, _, rfl⟩
    · obtain rfl := Except.ok.inj rest
      exact .inr ⟨buf, rfl⟩
    · obtain rfl := Except.ok.inj rest
      exact .inl ⟨buf, [], by simp⟩

theorem isNews_filter (msgs : List Message) :
    (msgs.filter Message.redirected).filter Message.isNews = msgs.filter Message.isNews := by
  rw [List.filter_filter]
  refine List.filter_congr fun msg _ => ?_
  unfold Message.isNews
  cases msg.redirected <;> simp

theorem redirected_status {msgs : List Message} (none : ∀ msg ∈ msgs, msg.isStatus = false)
    (connected : Bool) : lastStatus connected (msgs.filter Message.redirected) = connected :=
  lastStatus_of_none connected fun msg member => none msg (List.mem_filter.mp member).1

theorem processMsgFromServer_passes (none : cs.fromServer = [])
    {answer : Option (List UInt8)} {socket : Int}
    (read : cs.readMsgFromServer answer socket = .ok cs')
    (done : cs'.processMsgFromServer = .ok cs'') :
    ∃ heard told events, cs.Passes heard [] told events cs'' ∧ cs''.fromServer = [] ∧
      cs.Aside cs'' := by
  obtain ⟨out, ran, rfl⟩ := processMsgs_spec done
  rcases readMsgFromServer_spec read with ⟨buf, msgs, rfl⟩ | ⟨buf, rfl⟩
  · rw [none, List.nil_append] at *
    refine ⟨msgs, msgs.filter Message.redirected, msgs.map ClientServer.answer, ?_, rfl, rfl, rfl, rfl⟩
    apply Passes.of_line
    · rfl
    · dsimp only
      rw [List.append_nil]
    · exact ran
    · exact .answers msgs
    · exact isNews_filter msgs
    · exact fun none => redirected_status none _
    · rfl
  · have idle : ({ cs with bufFromServer := buf }.onBrokenServerConn socket).fromServer = [] := none
    rw [idle] at ran
    obtain rfl := Except.ok.inj ran
    refine ⟨[], [Message.new (.serverConnStatus false)], [], ?_, rfl, rfl, rfl, rfl⟩
    apply Passes.of_line
    · exact (List.append_nil _).symm
    · dsimp only [onBrokenServerConn, sendServerConnStatus]
      rw [List.append_nil]
    · rfl
    · exact .nil
    · rfl
    · exact fun _ => rfl
    · rw [idle]
      exact List.append_nil _

theorem writeMsgToServer_passes {results : List (Int × Int)} {curTime : Int}
    (done : cs.writeMsgToServer results curTime = .ok cs') :
    ∃ events, cs.Passes [] [] [] events cs' ∧ cs'.fromServer = cs.fromServer ∧ cs.Aside cs' := by
  unfold writeMsgToServer at done
  split_ifs at done
  · obtain rfl := Except.ok.inj done
    exact ⟨[], .refl cs, rfl, .refl cs⟩
  · obtain ⟨out, wrote, rest⟩ := bind_ok done
    obtain rfl := Except.ok.inj rest
    refine ⟨[.write results curTime], ?_, rfl, rfl, rfl, rfl⟩
    apply Passes.of_line
    · exact (List.append_nil _).symm
    · rw [List.append_nil]
    · have stepped : Outgoing.step cs.toServer (.write results curTime) = .ok out := wrote
      exact (run_cons_ok Outgoing.step stepped).mpr rfl
    · exact .write results curTime
    · rfl
    · exact fun _ => rfl
    · exact (List.append_nil _).symm

theorem processServer_passes (idle : cs.Idle) {turn : Turn}
    (done : cs.processServer turn = .ok cs') :
    ∃ heard told events, cs.Passes heard [] told events cs' ∧ cs'.fromServer = [] ∧
      cs.Aside cs' := by
  obtain ⟨cs₁, first, rest⟩ := bind_ok done
  obtain ⟨cs₂, second, last⟩ := bind_ok rest
  replace second := mapError_ok second
  have heard : ∃ heard told events, cs.Passes heard [] told events cs₂ ∧ cs₂.fromServer = [] ∧
      cs.Aside cs₂ := by
    cases answered : turn.serverReadable with
    | none =>
        rw [answered] at first
        obtain rfl := Except.ok.inj first
        obtain ⟨out, ran, rfl⟩ := processMsgs_spec second
        rw [idle.fromServer] at ran
        obtain rfl := Except.ok.inj ran
        refine ⟨[], [], [], ?_, rfl, rfl, rfl, rfl⟩
        apply Passes.of_line
        · exact (List.append_nil _).symm
        · dsimp only
          rw [List.append_nil]
        · rfl
        · exact .nil
        · rfl
        · exact fun _ => rfl
        · rw [idle.fromServer]
          rfl
    | some answer =>
        rw [answered] at first
        exact processMsgFromServer_passes idle.fromServer (mapError_ok first) second
  obtain ⟨heard, told, events, passes, server, aside⟩ := heard
  cases answered : turn.serverWritable with
  | none =>
      rw [answered] at last
      obtain rfl := Except.ok.inj last
      exact ⟨heard, told, events, passes, server, aside⟩
  | some written =>
      rw [answered] at last
      obtain ⟨results, curTime⟩ := written
      obtain ⟨events', passes', server', aside'⟩ := writeMsgToServer_passes (mapError_ok last)
      have both := passes.trans passes'
      simp only [List.append_nil] at both
      exact ⟨heard, told, _, both, server'.trans server, aside.trans aside'⟩

theorem processCmd_spec (cs : ClientServer) (msg : Message) (connect : Int) :
    ∃ told connected, cs.processCmd msg connect = { cs with
        hasServerConnection := connected
        toServer := ([msg].filter Message.requested).foldl Outgoing.sendMsg cs.toServer
        toInterface := cs.toInterface ++ told } ∧
      (∀ msg ∈ told, msg.isStatus = true) ∧
      lastStatus cs.hasServerConnection told = connected := by
  obtain ⟨id, body⟩ := msg
  cases body with
  | gameSessionReq | gameField | gameMove =>
      refine ⟨[], _, ?_, fun _ member => absurd member List.not_mem_nil, rfl⟩
      rw [List.append_nil]
      rfl
  | serverConnStatusReq => exact ⟨_, _, rfl, List.forall_mem_singleton.mpr rfl, rfl⟩
  | serverConnReq =>
      refine ⟨[Message.new (.serverConnStatus (cs.connectToServer connect).hasServerConnection)], _,
        ?_, List.forall_mem_singleton.mpr rfl, rfl⟩
      dsimp only [processCmd, processServerConnReqMsg, sendServerConnStatus]
      unfold connectToServer
      split_ifs <;> rfl
  | _ =>
      refine ⟨[], _, ?_, fun _ member => absurd member List.not_mem_nil, rfl⟩
      rw [List.append_nil]
      rfl

theorem processCmds_spec (cs : ClientServer) (msgs : List Message) (connects : Nat → Int) :
    ∃ told connected, cs.processCmds msgs connects = { cs with
        hasServerConnection := connected
        toServer := (msgs.filter Message.requested).foldl Outgoing.sendMsg cs.toServer
        toInterface := cs.toInterface ++ told } ∧
      (∀ msg ∈ told, msg.isStatus = true) ∧
      lastStatus cs.hasServerConnection told = connected := by
  induction msgs generalizing cs connects with
  | nil =>
      refine ⟨[], _, ?_, fun _ member => absurd member List.not_mem_nil, rfl⟩
      rw [List.append_nil]
      rfl
  | cons msg msgs ih =>
      obtain ⟨told, connected, first, own, last⟩ := processCmd_spec cs msg (connects 0)
      obtain ⟨told', connected', rest, own', last'⟩ :=
        ih (cs.processCmd msg (connects 0)) fun n => connects (n + 1)
      refine ⟨told ++ told', connected', ?_, List.forall_mem_append.mpr ⟨own, own'⟩, ?_⟩
      · rw [processCmds, rest, first]
        have both : (msg :: msgs).filter Message.requested =
            [msg].filter Message.requested ++ msgs.filter Message.requested :=
          List.filter_append [msg] msgs
        rw [both, List.foldl_append, List.append_assoc]
      · rw [first] at last'
        rw [lastStatus_append, last, last']

theorem run_requests (out : Outgoing) (msgs : List Message) :
    Outgoing.run out (requestEvents msgs) =
      .ok ((msgs.filter Message.requested).foldl Outgoing.sendMsg out) := by
  unfold requestEvents
  induction msgs.filter Message.requested generalizing out with
  | nil => rfl
  | cons msg msgs ih => exact ih (out.sendMsg msg)

theorem status_news {told : List Message} (own : ∀ msg ∈ told, msg.isStatus = true) :
    told.filter Message.isNews = [] :=
  List.filter_eq_nil_iff.mpr fun msg member => by simp [Message.isNews, own msg member]

theorem readMsgFromInterface_spec {answer : Option (List UInt8)}
    (done : cs.readMsgFromInterface answer = .ok cs') :
    ∃ buf msgs quit, cs' = { cs with
      bufFromInterface := buf
      fromInterface := cs.fromInterface ++ msgs
      quitFlag := quit
      line := { cs.line with read := cs.line.read ++ msgs } } := by
  obtain ⟨answered, _, rest⟩ := bind_ok done
  obtain ⟨err, buf⟩ := answered
  dsimp only at rest
  split_ifs at rest
  · obtain rfl := Except.ok.inj rest
    exact ⟨_, _, _, rfl⟩
  · obtain rfl := Except.ok.inj rest
    refine ⟨buf, [], cs.quitFlag || decide (err = .connBroken), ?_⟩
    rw [List.append_nil, List.append_nil]

theorem writeMsgToInterface_passes (cs : ClientServer) (results : List Int) :
    cs.Passes [] [] [] [] (cs.writeMsgToInterface results) := by
  obtain ⟨read, more, kept, ordered⟩ := Line.writeLoop_wrote cs.line cs.toInterface results
  constructor
  · exact (List.append_nil _).symm
  · exact read.trans (List.append_nil _).symm
  · rfl
  · exact .nil
  · rfl
  · exact fun _ => rfl
  · exact more
  · rw [List.append_nil]
    exact kept
  · intro same
    obtain ⟨rest, wrote, bytes⟩ := ordered same
    refine ⟨?_, cs.toInterface, wrote, bytes⟩
    rw [List.append_nil, ← wrote]
    exact (congrArg _ rest).trans (List.append_nil _)

theorem processCmdFromInterface_passes (cs : ClientServer) (buf : MsgBuffer) (msgs : List Message)
    (quit : Bool) (connects : Nat → Int) :
    let cs' := processCmdFromInterface { cs with
      bufFromInterface := buf
      fromInterface := msgs
      quitFlag := quit
      line := { cs.line with read := cs.line.read ++ msgs } } connects
    ∃ told, cs.Passes [] msgs told (requestEvents msgs) cs' ∧ cs'.fromServer = cs.fromServer ∧
      cs'.fromInterface = [] := by
  intro cs'
  obtain ⟨told, connected, processed, own, said⟩ := processCmds_spec { cs with
    bufFromInterface := buf
    fromInterface := []
    quitFlag := quit
    line := { cs.line with read := cs.line.read ++ msgs } } msgs connects
  have here : cs' = _ := processed
  refine ⟨told, ?_, by rw [here], by rw [here]⟩
  rw [here]
  apply Passes.of_line
  · exact (List.append_nil _).symm
  · rfl
  · exact run_requests cs.toServer msgs
  · exact .of_requests msgs
  · exact status_news own
  · exact fun _ => said
  · rfl

theorem processInterface_passes (idle : cs.Idle) {turn : Turn}
    (done : cs.processInterface turn = .ok cs') :
    ∃ asked told events, cs.Passes [] asked told events cs' ∧ cs'.Idle := by
  obtain ⟨cs₁, first, last⟩ := bind_ok done
  have read : ∃ buf msgs quit, cs₁ = { cs with
      bufFromInterface := buf
      fromInterface := msgs
      quitFlag := quit
      line := { cs.line with read := cs.line.read ++ msgs } } := by
    cases answered : turn.interfaceReadable with
    | none =>
        rw [answered] at first
        obtain rfl := Except.ok.inj first
        refine ⟨cs.bufFromInterface, [], cs.quitFlag, ?_⟩
        rw [List.append_nil, ← idle.fromInterface]
    | some answer =>
        rw [answered] at first
        obtain ⟨buf, msgs, quit, rfl⟩ := readMsgFromInterface_spec (mapError_ok first)
        exact ⟨buf, msgs, quit, by rw [idle.fromInterface, List.nil_append]⟩
  obtain ⟨buf, msgs, quit, rfl⟩ := read
  obtain ⟨told, passes, server, interface⟩ :=
    processCmdFromInterface_passes cs buf msgs quit turn.connects
  generalize processCmdFromInterface _ turn.connects = cs₂ at last passes server interface
  cases answered : turn.interfaceWritable with
  | none =>
      rw [answered] at last
      obtain rfl := Except.ok.inj last
      exact ⟨msgs, told, _, passes, server.trans idle.fromServer, interface⟩
  | some results =>
      rw [answered] at last
      obtain rfl := Except.ok.inj last
      have both := passes.trans (writeMsgToInterface_passes cs₂ results)
      simp only [List.append_nil] at both
      exact ⟨msgs, told, _, both, server.trans idle.fromServer, interface⟩

theorem connected_passes (idle : cs.Idle) {turn : Turn}
    (done : (if cs.hasServerConnection then cs.processServer turn else .ok cs) = .ok cs') :
    ∃ heard told events, cs.Passes heard [] told events cs' ∧ cs'.fromServer = [] ∧
      cs.Aside cs' := by
  split_ifs at done
  · exact processServer_passes idle done
  · obtain rfl := Except.ok.inj done
    exact ⟨[], [], [], .refl cs, idle.fromServer, .refl cs⟩

theorem turn_passes (idle : cs.Idle) {turn : Turn} (done : cs.turn turn = .ok cs') :
    ∃ heard asked told events, cs.Passes heard asked told events cs' ∧ cs'.Idle := by
  unfold ClientServer.turn processSelectResult at done
  split_ifs at done
  · obtain rfl := Except.ok.inj done
    exact ⟨[], [], [], [], .refl cs, idle⟩
  · obtain ⟨cs₁, first, last⟩ := bind_ok done
    obtain ⟨heard, told, events, passes, server, aside⟩ := connected_passes idle first
    have idle₁ : cs₁.Idle := ⟨server, aside.fromInterface.trans idle.fromInterface⟩
    obtain ⟨asked, told', events', passes', idle'⟩ := processInterface_passes idle₁ last
    have both := passes.trans passes'
    rw [List.append_nil, List.nil_append] at both
    exact ⟨heard, asked, _, _, both, idle'⟩

theorem run_passes {turns : List Turn} (idle : cs.Idle) (done : run cs turns = .ok cs') :
    ∃ heard asked told events, cs.Passes heard asked told events cs' ∧ cs'.Idle := by
  refine run_history turn (fun _ cs' =>
    ∃ heard asked told events, cs.Passes heard asked told events cs' ∧ cs'.Idle) ?_ ?_ done
  · exact ⟨[], [], [], [], .refl cs, idle⟩
  · rintro _ cs₁ _ cs₂ _ ⟨heard, asked, told, events, passes, idle₁⟩ stepped
    obtain ⟨heard', asked', told', events', passes', idle₂⟩ := turn_passes idle₁ stepped
    exact ⟨_, _, _, _, passes.trans passes', idle₂⟩

end Steps
end ClientServer
end Battleship
