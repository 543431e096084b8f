import Battleship.Relay
import Battleship.Ledger

/-! The server and the client processes with the messages under way between them. A receipt
names a message that the client process has heard, so the server gives up none because of a
receipt that did not come through. -/
namespace Battleship

open Runs

/-- The client process at the other end of a connection, from its start to the loss of the
connection. A stream of whole messages is read as these messages: how it comes in pieces is
left out here. -/
structure Wire where
  relay : ClientServer
  /-- The messages under way to the client. -/
  down : List Message
  /-- The messages under way to the server. -/
  up : List Message
  /-- The messages that the server has read; they are not kept. -/
  arrived : List Message

structure Network where
  mail : Mail
  wires : ClientId → Wire

namespace Network

/-- The client processes are connected, and nothing is under way. -/
def init : Network where
  mail := Mail.init
  wires := fun _ => ⟨(ClientServer.init 3 4).connectToServer 0, [], [], []⟩

inductive Event where
  /-- An event that is no message of a client. -/
  | server (e : Server.Event)
  | serverReads (client : ClientId) (now : Int64)
  | serverWrites (client : ClientId) (results : List (Int × Int)) (curTime : Int)
  | clientReads (client : ClientId)
  /-- A message of the interface process, and what `connect` returns. -/
  | clientAsks (client : ClientId) (msg : Message) (connect : Int)
  | clientWrites (client : ClientId) (results : List (Int × Int)) (curTime : Int)

inductive Stop where
  | server (stop : Fault ⊕ MsgFault)
  | client (fault : MsgFault)
  /-- The socket has taken a part of a message. -/
  | cutShort
  | notEnabled
  deriving DecidableEq, Repr

def uncut (sent : List Transmission) : Bool :=
  sent.all fun sent => decide (sent.accepted = getTypeDataSize sent.msg.type)

def setWire (net : Network) (c : ClientId) (wire : Wire) : Network :=
  { net with wires := Function.update net.wires c wire }

@[simp] theorem setWire_self (net : Network) (c : ClientId) (wire : Wire) :
    (net.setWire c wire).wires c = wire := Function.update_self ..

theorem setWire_of_ne (net : Network) {c d : ClientId} (other : d ≠ c) (wire : Wire) :
    (net.setWire c wire).wires d = net.wires d := Function.update_of_ne other ..

def serverReads (net : Network) (c : ClientId) (now : Int64) : Except Stop Network :=
  let wire := net.wires c
  match wire.up with
  | [] => .error .notEnabled
  | msg :: up => do
      let mail ← (net.mail.step (.server (.message c msg now))).mapError .server
      .ok ({ net with mail := mail }.setWire c
        { wire with up := up, arrived := wire.arrived ++ [msg] })

def serverWrites (net : Network) (c : ClientId) (results : List (Int × Int)) (curTime : Int) :
    Except Stop Network :=
  let wire := net.wires c
  let sent := (net.mail.outgoing c).transmissions (net.mail.outgoing c).toSendMsg results
  if uncut sent then do
    let mail ← (net.mail.step (.write c results curTime)).mapError .server
    .ok ({ net with mail := mail }.setWire c
      { wire with down := wire.down ++ sent.map Transmission.msg })
  else .error .cutShort

def clientReads (net : Network) (c : ClientId) : Except Stop Network :=
  let wire := net.wires c
  match wire.down with
  | [] => .error .notEnabled
  | msg :: down => do
      let heard := { wire.relay with heard := wire.relay.heard ++ [msg] }
      let relay ← (heard.processMsg msg).mapError .client
      .ok (net.setWire c { wire with relay := relay, down := down })

def clientAsks (net : Network) (c : ClientId) (msg : Message) (connect : Int) : Network :=
  let wire := net.wires c
  let line := { wire.relay.line with read := wire.relay.line.read ++ [msg] }
  net.setWire c { wire with relay := { wire.relay with line := line }.processCmd msg connect }

def clientWrites (net : Network) (c : ClientId) (results : List (Int × Int)) (curTime : Int) :
    Except Stop Network :=
  let wire := net.wires c
  let sent := wire.relay.toServer.transmissions wire.relay.toServer.toSendMsg results
  if !wire.relay.hasServerConnection then .error .notEnabled
  else if uncut sent then do
    let relay ← (wire.relay.writeMsgToServer results curTime).mapError .client
    .ok (net.setWire c { wire with relay := relay, up := wire.up ++ sent.map Transmission.msg })
  else .error .cutShort

def step (net : Network) : Event → Except Stop Network
  | .server (.message _ _ _) => .error .notEnabled
  | .server e => do
      .ok { net with mail := ← (net.mail.step (.server e)).mapError .server }
  | .serverReads c now => net.serverReads c now
  | .serverWrites c results curTime => net.serverWrites c results curTime
  | .clientReads c => net.clientReads c
  | .clientAsks c msg connect => .ok (net.clientAsks c msg connect)
  | .clientWrites c results curTime => net.clientWrites c results curTime

abbrev run : Network → List Event → Except Stop Network := Runs.run step

end Network

def Message.NamesHeard (heard : List Message) (msg : Message) : Prop :=
  ∀ id, msg.body = .receipt id → ∃ read ∈ heard, read.type ≠ .receipt ∧ read.id = id

theorem Message.NamesHeard.later {heard : List Message} {msg : Message}
    (names : msg.NamesHeard heard) (more : List Message) : msg.NamesHeard (heard ++ more) := by
  intro id receipt
  obtain ⟨read, member, kind, same⟩ := names id receipt
  exact ⟨read, List.mem_append_left more member, kind, same⟩

namespace Wire

/-- `log` is what the server has written, `log'` what the client has, and `handed` are the
messages that the client had to send. -/
structure Booked (wire : Wire) (log log' : List Transmission) (handed : List Message) : Prop where
  down : log.map Transmission.msg = wire.relay.heard ++ wire.down
  up : log'.map Transmission.msg = wire.arrived ++ wire.up
  ledger : wire.relay.toServer.Ledger wire.relay.toServer.toSendMsg log' handed
  receipts : ∀ msg ∈ handed, msg.NamesHeard wire.relay.heard
  requests : (handed.filter fun msg => !msg.isReceipt) =
    wire.relay.line.read.filter Message.requested

section Booked

variable {wire : Wire} {log log' : List Transmission} {handed : List Message}

theorem Booked.arrives (booked : wire.Booked log log' handed) {msg : Message} {up : List Message}
    (next : wire.up = msg :: up) :
    { wire with up := up, arrived := wire.arrived ++ [msg] }.Booked log log' handed := by
  obtain ⟨down, sent, ledger, receipts, requests⟩ := booked
  refine ⟨down, ?_, ledger, receipts, requests⟩
  rw [sent, next, List.append_assoc, List.singleton_append]

theorem Booked.written (booked : wire.Booked log log' handed) (sent : List Transmission) :
    { wire with down := wire.down ++ sent.map Transmission.msg }.Booked (log ++ sent) log'
      handed := by
  obtain ⟨down, up, ledger, receipts, requests⟩ := booked
  refine ⟨?_, up, ledger, receipts, requests⟩
  rw [List.map_append, down, List.append_assoc]

/-- A message that comes through is acknowledged under its number. -/
theorem Booked.hears (booked : wire.Booked log log' handed) {msg : Message} {down : List Message}
    (next : wire.down = msg :: down) {relay : ClientServer}
    (done : { wire.relay with heard := wire.relay.heard ++ [msg] }.processMsg msg = .ok relay) :
    ∃ handed', { wire with relay := relay, down := down }.Booked log log' handed' := by
  obtain ⟨sent, up, ledger, receipts, requests⟩ := booked
  obtain ⟨out, stepped, rfl⟩ := ClientServer.processMsg_spec done
  have down' : log.map Transmission.msg = wire.relay.heard ++ [msg] ++ down := by
    rw [sent, next, List.append_assoc, List.singleton_append]
  have receipts' (made : Message) (member : made ∈ handed) :
      made.NamesHeard (wire.relay.heard ++ [msg]) := (receipts made member).later [msg]
  cases named : msg.body.receiptFor with
  | some reqMsgId =>
      rw [ClientServer.answer, named] at stepped
      obtain ⟨_, queue, _⟩ := Outgoing.processCheck_spec stepped
      refine ⟨handed, down', up, ?_, receipts', requests⟩
      change out.Ledger out.toSendMsg log' handed
      rw [queue]
      exact ledger.processCheck stepped
  | none =>
      rw [ClientServer.answer, named] at stepped
      obtain rfl := Except.ok.inj stepped
      refine ⟨handed ++ [Message.new (.receipt msg.id)], down', up, ledger.sendMsg _, ?_, ?_⟩
      · refine List.forall_mem_append.mpr ⟨receipts', List.forall_mem_singleton.mpr ?_⟩
        intro id same
        have same : msg.id = id := Body.receipt.inj same
        refine ⟨msg, List.mem_append_right _ (List.mem_singleton_self _), ?_, same⟩
        intro receipt
        obtain ⟨_, body⟩ := msg
        cases body with
        | receipt => cases named
        | _ => cases receipt
      · rw [List.filter_append, requests]
        exact List.append_nil _

theorem Booked.asks (booked : wire.Booked log log' handed) (msg : Message) (connect : Int) :
    let line := { wire.relay.line with read := wire.relay.line.read ++ [msg] }
    let relay := { wire.relay with line := line }.processCmd msg connect
    ∃ handed', { wire with relay := relay }.Booked log log' handed' := by
  intro line relay
  obtain ⟨down, up, ledger, receipts, requests⟩ := booked
  obtain ⟨told, connected, processed, _, _⟩ :=
    ClientServer.processCmd_spec { wire.relay with line := line } msg connect
  rw [show relay = _ from processed]
  have plain (request : Message) (member : request ∈ [msg].filter Message.requested) :
      request.isReceipt = false := by
    have asked := (List.mem_filter.mp member).2
    obtain ⟨_, body⟩ := request
    cases body with
    | receipt => cases asked
    | _ => rfl
  refine ⟨handed ++ [msg].filter Message.requested, down, up, ledger.sendAll _, ?_, ?_⟩
  · refine List.forall_mem_append.mpr ⟨receipts, fun request member id receipt => ?_⟩
    have none := plain request member
    rw [Message.isReceipt, Message.type, receipt] at none
    cases none
  · have all : (([msg].filter Message.requested).filter fun msg => !msg.isReceipt) =
        [msg].filter Message.requested :=
      List.filter_eq_self.mpr fun request member => by simp [plain request member]
    rw [List.filter_append, requests, all, ← List.filter_append]

theorem Booked.sends (booked : wire.Booked log log' handed)
    (connected : wire.relay.hasServerConnection = true) {results : List (Int × Int)}
    {curTime : Int} {relay : ClientServer}
    (done : wire.relay.writeMsgToServer results curTime = .ok relay) :
    let sent := wire.relay.toServer.transmissions wire.relay.toServer.toSendMsg results
    { wire with relay := relay, up := wire.up ++ sent.map Transmission.msg }.Booked log
      (log' ++ sent) handed := by
  intro sent
  obtain ⟨down, up, ledger, receipts, requests⟩ := booked
  rw [ClientServer.writeMsgToServer, connected] at done
  obtain ⟨out, wrote, rest⟩ := bind_ok done
  obtain rfl := Except.ok.inj rest
  refine ⟨down, ?_, ledger.writeMsg wrote, receipts, requests⟩
  rw [List.map_append, up, List.append_assoc]

end Booked
end Wire

namespace Network

structure Booked (net : Network) (log : ClientId → List Transmission) : Prop where
  mail : net.mail.Booked log
  wires : ∀ c, ∃ log' handed, (net.wires c).Booked (log c) log' handed

section Booked

variable {net net' : Network} {log : ClientId → List Transmission}

theorem init_booked : init.Booked fun _ => [] := by
  refine ⟨Mail.init_booked, fun c => ⟨[], [], rfl, rfl, Outgoing.init_ledger _ _, ?_, rfl⟩⟩
  exact fun msg member => absurd member List.not_mem_nil

/-- One client process and what is under way to or from it have changed. -/
theorem Booked.set (booked : net.Booked log) {c : ClientId} {wire : Wire}
    (wired : ∃ log' handed, wire.Booked (log c) log' handed) : (net.setWire c wire).Booked log := by
  refine ⟨booked.mail, fun d => ?_⟩
  by_cases same : d = c
  · subst same
    rw [setWire_self]
    exact wired
  · rw [setWire_of_ne net same]
    exact booked.wires d

theorem Booked.serverReads (booked : net.Booked log) {c : ClientId} {now : Int64}
    (done : net.serverReads c now = .ok net') : net'.Booked log := by
  unfold Network.serverReads at done
  cases next : (net.wires c).up with
  | nil =>
      simp only [next] at done
      cases done
  | cons msg up =>
      simp only [next] at done
      obtain ⟨mail, stepped, rest⟩ := bind_ok done
      obtain rfl := Except.ok.inj rest
      obtain ⟨log', handed, wired⟩ := booked.wires c
      have mailed : { net with mail := mail }.Booked log :=
        ⟨booked.mail.server_step (mapError_ok stepped), booked.wires⟩
      exact mailed.set ⟨log', handed, wired.arrives next⟩

theorem Booked.serverWrites (booked : net.Booked log) {c : ClientId}
    {results : List (Int × Int)} {curTime : Int}
    (done : net.serverWrites c results curTime = .ok net') : ∃ log', net'.Booked log' := by
  unfold Network.serverWrites at done
  dsimp only at done
  split_ifs at done
  obtain ⟨mail, stepped, rest⟩ := bind_ok done
  obtain rfl := Except.ok.inj rest
  refine ⟨_, booked.mail.write_step (mapError_ok stepped), fun d => ?_⟩
  obtain ⟨log', handed, wired⟩ := booked.wires d
  by_cases same : d = c
  · subst same
    rw [setWire_self, Function.update_self]
    exact ⟨log', handed, wired.written _⟩
  · rw [setWire_of_ne _ same, Function.update_of_ne same]
    exact ⟨log', handed, wired⟩

theorem Booked.clientReads (booked : net.Booked log) {c : ClientId}
    (done : net.clientReads c = .ok net') : net'.Booked log := by
  unfold Network.clientReads at done
  cases next : (net.wires c).down with
  | nil =>
      simp only [next] at done
      cases done
  | cons msg down =>
      simp only [next] at done
      obtain ⟨relay, processed, rest⟩ := bind_ok done
      obtain rfl := Except.ok.inj rest
      obtain ⟨log', handed, wired⟩ := booked.wires c
      exact booked.set ⟨log', wired.hears next (mapError_ok processed)⟩

theorem Booked.clientAsks (booked : net.Booked log) (c : ClientId) (msg : Message)
    (connect : Int) : (net.clientAsks c msg connect).Booked log := by
  obtain ⟨log', handed, wired⟩ := booked.wires c
  exact booked.set ⟨log', wired.asks msg connect⟩

theorem Booked.clientWrites (booked : net.Booked log) {c : ClientId}
    {results : List (Int × Int)} {curTime : Int}
    (done : net.clientWrites c results curTime = .ok net') : net'.Booked log := by
  unfold Network.clientWrites at done
  dsimp only at done
  split_ifs at done with lost
  obtain ⟨relay, wrote, rest⟩ := bind_ok done
  obtain rfl := Except.ok.inj rest
  obtain ⟨log', handed, wired⟩ := booked.wires c
  have connected : (net.wires c).relay.hasServerConnection = true := by simpa using lost
  exact booked.set ⟨_, handed, wired.sends connected (mapError_ok wrote)⟩

theorem Booked.step (booked : net.Booked log) {e : Event} (done : net.step e = .ok net') :
    ∃ log', net'.Booked log' := by
  cases e with
  | server e =>
      have stepped : ∃ mail, net.mail.step (.server e) = .ok mail ∧
          net' = { net with mail := mail } := by
        cases e with
        | message => cases done
        | _ =>
            obtain ⟨mail, stepped, rest⟩ := bind_ok done
            exact ⟨mail, mapError_ok stepped, (Except.ok.inj rest).symm⟩
      obtain ⟨mail, stepped, rfl⟩ := stepped
      exact ⟨log, booked.mail.server_step stepped, booked.wires⟩
  | serverReads c now => exact ⟨log, booked.serverReads done⟩
  | serverWrites c results curTime => exact booked.serverWrites done
  | clientReads c => exact ⟨log, booked.clientReads done⟩
  | clientAsks c msg connect =>
      obtain rfl := Except.ok.inj done
      exact ⟨log, booked.clientAsks c msg connect⟩
  | clientWrites c results curTime => exact ⟨log, booked.clientWrites done⟩

theorem run_booked {es : List Event} (done : run init es = .ok net) : ∃ log, net.Booked log := by
  have keeps (net : Network) (e : Event) (net' : Network) (booked : ∃ log, net.Booked log)
      (stepped : net.step e = .ok net') : ∃ log, net'.Booked log := by
    obtain ⟨log, booked⟩ := booked
    exact booked.step stepped
  exact run_invariant Network.step keeps ⟨_, init_booked⟩ done

theorem Booked.downwards (booked : net.Booked log) (c : ClientId)
    (alive : net.mail.srv.clients c ≠ none) :
    ((net.mail.srv.toSendMsg c).map Message.body).Subperm
      (((net.wires c).relay.heard ++ (net.wires c).down).map Message.body ++
        (net.mail.out c).waitingBodies (net.mail.out c).toSendMsg) := by
  obtain ⟨handed, ledger, all⟩ := booked.mail.ledger c
  obtain ⟨log', _, wired⟩ := booked.wires c
  have wrote : (log c).map (fun sent => sent.msg.body) =
      ((net.wires c).relay.heard ++ (net.wires c).down).map Message.body := by
    rw [← wired.down, List.map_map]
    rfl
  rw [← wrote, ← all (.inl alive)]
  exact ledger.accounted

theorem Booked.upwards (booked : net.Booked log) (c : ClientId) :
    (((net.wires c).relay.line.read.filter Message.requested).map Message.body).Subperm
      (((net.wires c).arrived ++ (net.wires c).up).map Message.body ++
        (net.wires c).relay.toServer.waitingBodies (net.wires c).relay.toServer.toSendMsg) := by
  obtain ⟨log', handed, wired⟩ := booked.wires c
  have wrote : log'.map (fun sent => sent.msg.body) =
      ((net.wires c).arrived ++ (net.wires c).up).map Message.body := by
    rw [← wired.up, List.map_map]
    rfl
  rw [← wrote, ← wired.requests]
  have part : (handed.filter fun msg => !msg.isReceipt).Sublist handed := List.filter_sublist
  exact (part.map Message.body).subperm.trans wired.ledger.accounted

theorem Booked.queued (booked : net.Booked log) {c : ClientId}
    (alive : net.mail.srv.clients c ≠ none) {msg : Message}
    (member : msg ∈ (net.wires c).relay.heard ++ (net.wires c).down) :
    ∃ made ∈ net.mail.srv.toSendMsg c, msg.body = made.body := by
  obtain ⟨handed, ledger, all⟩ := booked.mail.ledger c
  obtain ⟨log', _, wired⟩ := booked.wires c
  rw [← wired.down] at member
  obtain ⟨sent, inside, rfl⟩ := List.mem_map.mp member
  obtain ⟨made, known, same⟩ := ledger.logged sent inside
  rw [← all (.inl alive)]
  exact ⟨made, List.mem_of_getElem? known, same⟩

/-- What the client process has written is a request of the interface or a receipt of what was
heard. -/
theorem Booked.answered (booked : net.Booked log) {c : ClientId} {msg : Message}
    (member : msg ∈ (net.wires c).arrived ++ (net.wires c).up) :
    (msg.isReceipt = false → ∃ asked ∈ (net.wires c).relay.line.read,
        asked.requested = true ∧ msg.body = asked.body) ∧
      msg.NamesHeard (net.wires c).relay.heard := by
  obtain ⟨log', handed, wired⟩ := booked.wires c
  rw [← wired.up] at member
  obtain ⟨sent, inside, rfl⟩ := List.mem_map.mp member
  obtain ⟨made, known, same⟩ := wired.ledger.logged sent inside
  have queued : made ∈ handed := List.mem_of_getElem? known
  refine ⟨fun plain => ?_, fun id receipt => wired.receipts made queued id (same ▸ receipt)⟩
  have kind : made.isReceipt = false := by
    rwa [Message.isReceipt, Message.type, same] at plain
  have request : made ∈ handed.filter fun msg => !msg.isReceipt :=
    List.mem_filter.mpr ⟨queued, by simp [kind]⟩
  rw [wired.requests] at request
  obtain ⟨asked, passed⟩ := List.mem_filter.mp request
  exact ⟨made, asked, passed, same⟩

/-- The message under control whose number a receipt names is the one that was heard. -/
theorem Booked.heard (booked : net.Booked log) (few : net.mail.sent < 2 ^ 63) {c : ClientId}
    {receipt : Message} (coming : receipt ∈ (net.wires c).up) {id : Int64}
    (names : receipt.body = .receipt id) {item : ListItem}
    (controlled : item ∈ (net.mail.out c).control) {msg : Message}
    (object : (net.mail.out c).objects item.msg = some msg) (same : msg.id = id) :
    msg ∈ (net.wires c).relay.heard := by
  obtain ⟨taken, counted, distinct⟩ := booked.mail.numbers few
  obtain ⟨log', handed, wired⟩ := booked.wires c
  obtain ⟨read, heard, kind, number⟩ :=
    (booked.answered (List.mem_append_right _ coming)).2 id names
  -- What was heard was written, and no other message of the client has its number.
  have wrote : read ∈ (log c).map Transmission.msg := wired.down ▸ List.mem_append_left _ heard
  obtain ⟨written, inside, rfl⟩ := List.mem_map.mp wrote
  have before : (net.mail.outgoing c).Distinct taken (log c) := (distinct c).congr rfl
  have first := before.named (counted.registered c) controlled object inside kind
    (number.trans same.symm)
  exact first ▸ heard

end Booked
end Network

/-- What the server has queued for a client that is connected was heard by the client process,
is under way to it or waits in the client's queue; and the same of the requests that the
client process has read from the interface. -/
theorem nothing_lost {es : List Network.Event} {net : Network}
    (done : Network.run Network.init es = .ok net) (c : ClientId) :
    (net.mail.srv.clients c ≠ none →
      ((net.mail.srv.toSendMsg c).map Message.body).Subperm
        (((net.wires c).relay.heard ++ (net.wires c).down).map Message.body ++
          (net.mail.out c).waitingBodies (net.mail.out c).toSendMsg)) ∧
      (((net.wires c).relay.line.read.filter Message.requested).map Message.body).Subperm
        (((net.wires c).arrived ++ (net.wires c).up).map Message.body ++
          (net.wires c).relay.toServer.waitingBodies (net.wires c).relay.toServer.toSendMsg) := by
  obtain ⟨log, booked⟩ := Network.run_booked done
  exact ⟨booked.downwards c, booked.upwards c⟩

/-- Nothing else comes through: what a connected client process hears was queued for it, and
the server hears requests that the interface has made and receipts of what was heard. -/
theorem nothing_made_up {es : List Network.Event} {net : Network}
    (done : Network.run Network.init es = .ok net) (c : ClientId) :
    (net.mail.srv.clients c ≠ none → ∀ msg ∈ (net.wires c).relay.heard ++ (net.wires c).down,
        ∃ made ∈ net.mail.srv.toSendMsg c, msg.body = made.body) ∧
      ∀ msg ∈ (net.wires c).arrived ++ (net.wires c).up,
        (msg.isReceipt = false → ∃ asked ∈ (net.wires c).relay.line.read,
          asked.requested = true ∧ msg.body = asked.body) ∧
        ∀ id, msg.body = .receipt id →
          ∃ read ∈ (net.wires c).relay.heard, read.type ≠ .receipt ∧ read.id = id := by
  obtain ⟨log, booked⟩ := Network.run_booked done
  exact ⟨fun alive msg member => booked.queued alive member,
    fun msg member => booked.answered member⟩

theorem Body.eq_receipt {body : Body} {id : Int64} (named : body.receiptFor = some id) :
    body = .receipt id := by
  cases body with
  | receipt => exact congrArg Body.receipt (Option.some.inj named)
  | _ => cases named

/-- A client asks for a session, hears that it has to wait and that it was heard, and has
written the receipt. -/
def firstAnswer : List Network.Event :=
  [.server .accept, .clientAsks 0 (Message.new .gameSessionReq) 0, .clientWrites 0 [(13, 0)] 0,
    .serverReads 0 0, .serverWrites 0 [(17, 0), (21, 0)] 0, .clientReads 0, .clientReads 0,
    .clientWrites 0 [(21, 0)] 0]

theorem firstAnswer_run : ∃ net, Network.run Network.init firstAnswer = .ok net ∧
    net.mail.sent = 2 ∧ net.mail.srv.clients 0 ≠ none ∧ (net.mail.out 0).ids = [1] ∧
    ((net.wires 0).up.filterMap fun msg : Message => msg.body.receiptFor) = [1] := by
  obtain ⟨net, done, shown⟩ := ok_of_map
    (fun net : Network => (net.mail.sent, (net.mail.srv.clients 0).isSome, (net.mail.out 0).ids,
      (net.wires 0).up.filterMap fun msg : Message => msg.body.receiptFor))
    (show (Network.run Network.init firstAnswer).map _ = .ok (2, true, [1], [1]) by
      decide +kernel)
  simp only [Prod.mk.injEq] at shown
  obtain ⟨sent, alive, ids, receipts⟩ := shown
  exact ⟨net, done, sent, Option.isSome_iff_ne_none.mp alive, ids, receipts⟩

theorem nothing_lost_firstAnswer : ∃ net, Network.run Network.init firstAnswer = .ok net ∧
    ((net.mail.srv.toSendMsg 0).map Message.body).Subperm
      (((net.wires 0).relay.heard ++ (net.wires 0).down).map Message.body ++
        (net.mail.out 0).waitingBodies (net.mail.out 0).toSendMsg) := by
  obtain ⟨net, done, _, alive, _⟩ := firstAnswer_run
  exact ⟨net, done, (nothing_lost done 0).1 alive⟩

theorem nothing_made_up_firstAnswer : ∃ net, Network.run Network.init firstAnswer = .ok net ∧
    ∀ msg ∈ (net.wires 0).relay.heard ++ (net.wires 0).down,
      ∃ made ∈ net.mail.srv.toSendMsg 0, msg.body = made.body := by
  obtain ⟨net, done, _, alive, _⟩ := firstAnswer_run
  exact ⟨net, done, (nothing_made_up done 0).1 alive⟩

/-- While fewer than 2 ^ 63 messages were sent, a receipt under way to the server names no
message under control that the client process has not heard. -/
theorem acknowledged_heard {es : List Network.Event} {net : Network}
    (done : Network.run Network.init es = .ok net) (few : net.mail.sent < 2 ^ 63) {c : ClientId}
    {receipt : Message} (coming : receipt ∈ (net.wires c).up) {id : Int64}
    (names : receipt.body = .receipt id) {item : ListItem}
    (controlled : item ∈ (net.mail.out c).control) {msg : Message}
    (object : (net.mail.out c).objects item.msg = some msg) (same : msg.id = id) :
    msg ∈ (net.wires c).relay.heard := by
  obtain ⟨log, booked⟩ := Network.run_booked done
  exact booked.heard few coming names controlled object same

theorem acknowledged_heard_firstAnswer : ∃ net, Network.run Network.init firstAnswer = .ok net ∧
    ∃ receipt ∈ (net.wires 0).up, receipt.body = .receipt 1 ∧
      ∃ item ∈ (net.mail.out 0).control, ∃ msg, (net.mail.out 0).objects item.msg = some msg ∧
        msg.id = 1 ∧ msg ∈ (net.wires 0).relay.heard := by
  obtain ⟨net, done, sent, _, ids, receipts⟩ := firstAnswer_run
  obtain ⟨receipt, coming, named⟩ := List.mem_filterMap.mp
    (receipts ▸ List.mem_singleton_self (1 : Int64))
  obtain ⟨item, controlled, number⟩ := List.mem_filterMap.mp
    (ids ▸ List.mem_singleton_self (1 : Int64))
  obtain ⟨msg, object, same⟩ := Option.map_eq_some_iff.mp number
  have names : receipt.body = .receipt 1 := Body.eq_receipt named
  exact ⟨net, done, receipt, coming, names, item, controlled, msg, object, same,
    acknowledged_heard done (by omega) coming names controlled object same⟩

end Battleship
