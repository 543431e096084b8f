import Battleship.Network
import Battleship.PlayerClient

/-! The network with the bytes that are under way: the buffers at both ends take them in chunks
of any size. What it does the network of whole messages does too. -/
namespace Battleship

open Runs Framing

structure Pipe where
  relay : ClientServer
  /-- The server's buffer for the client, with all that came out of it. -/
  reader : Reader
  /-- The bytes under way to the client. -/
  down : List UInt8
  /-- The bytes under way to the server. -/
  up : List UInt8

def Pipe.clientReader (pipe : Pipe) : Reader := ⟨pipe.relay.bufFromServer, pipe.relay.heard⟩

structure ByteNetwork where
  mail : Mail
  pipes : ClientId → Pipe

namespace ByteNetwork

def init : ByteNetwork where
  mail := Mail.init
  pipes := fun _ => ⟨(ClientServer.init 3 4).connectToServer 0, Reader.init, [], []⟩

inductive Event where
  /-- An event that is no message of a client. -/
  | server (e : Server.Event)
  | serverReads (client : ClientId) (chunk : List UInt8) (now : Int64)
  | serverWrites (client : ClientId) (results : List (Int × Int)) (curTime : Int)
  | clientReads (client : ClientId) (chunk : List UInt8)
  /-- A message of the interface process, and what `connect` returns. -/
  | clientAsks (client : ClientId) (msg : Message) (connect : Int)
  | clientWrites (client : ClientId) (results : List (Int × Int)) (curTime : Int)

inductive Stop where
  | network (stop : Network.Stop)
  | buffer (fault : BufFault)
  deriving DecidableEq, Repr

def setPipe (net : ByteNetwork) (c : ClientId) (pipe : Pipe) : ByteNetwork :=
  { net with pipes := Function.update net.pipes c pipe }

@[simp] theorem setPipe_self (net : ByteNetwork) (c : ClientId) (pipe : Pipe) :
    (net.setPipe c pipe).pipes c = pipe := Function.update_self ..

theorem setPipe_of_ne (net : ByteNetwork) {c d : ClientId} (other : d ≠ c) (pipe : Pipe) :
    (net.setPipe c pipe).pipes d = net.pipes d := Function.update_of_ne other ..

def CanTake (chunk : List UInt8) (buf : MsgBuffer) (bytes : List UInt8) : Prop :=
  chunk ≠ [] ∧ chunk <+: bytes ∧ chunk.length ≤ buffSize - buf.buf.length

instance (chunk : List UInt8) (buf : MsgBuffer) (bytes : List UInt8) :
    Decidable (CanTake chunk buf bytes) :=
  inferInstanceAs (Decidable (_ ∧ _ ∧ _))

def serverReads (net : ByteNetwork) (c : ClientId) (chunk : List UInt8) (now : Int64) :
    Except Stop ByteNetwork :=
  let pipe := net.pipes c
  if CanTake chunk pipe.reader.buffer pipe.up then do
    let reader ← (Reader.step 4 pipe.reader chunk).mapError .buffer
    let msgs := reader.extracted.drop pipe.reader.extracted.length
    let mail ← (net.mail.run (msgs.map fun msg => .server (.message c msg now))).mapError
      (Stop.network ∘ Network.Stop.server)
    .ok ({ net with mail := mail }.setPipe c
      { pipe with reader := reader, up := pipe.up.drop chunk.length })
  else .error (.network .notEnabled)

def serverWrites (net : ByteNetwork) (c : ClientId) (results : List (Int × Int))
    (curTime : Int) : Except Stop ByteNetwork :=
  let pipe := net.pipes c
  let sent := (net.mail.outgoing c).transmissions (net.mail.outgoing c).toSendMsg results
  if Network.uncut sent then do
    let mail ← (net.mail.step (.write c results curTime)).mapError
      (Stop.network ∘ Network.Stop.server)
    .ok ({ net with mail := mail }.setPipe c
      { pipe with down := pipe.down ++ written Transmission.data Transmission.accepted sent })
  else .error (.network .cutShort)

/-- `_read_msg_from_server` and `_process_msg_from_server`. -/
def clientReads (net : ByteNetwork) (c : ClientId) (chunk : List UInt8) :
    Except Stop ByteNetwork :=
  let pipe := net.pipes c
  if CanTake chunk pipe.relay.bufFromServer pipe.down then do
    let relay ← (pipe.relay.readMsgFromServer (some chunk) 3).mapError .buffer
    let relay ← relay.processMsgFromServer.mapError (Stop.network ∘ Network.Stop.client)
    .ok (net.setPipe c { pipe with relay := relay, down := pipe.down.drop chunk.length })
  else .error (.network .notEnabled)

def clientAsks (net : ByteNetwork) (c : ClientId) (msg : Message) (connect : Int) :
    ByteNetwork :=
  let pipe := net.pipes c
  let line := { pipe.relay.line with read := pipe.relay.line.read ++ [msg] }
  net.setPipe c { pipe with relay := { pipe.relay with line := line }.processCmd msg connect }

def clientWrites (net : ByteNetwork) (c : ClientId) (results : List (Int × Int))
    (curTime : Int) : Except Stop ByteNetwork :=
  let pipe := net.pipes c
  let sent := pipe.relay.toServer.transmissions pipe.relay.toServer.toSendMsg results
  if !pipe.relay.hasServerConnection then .error (.network .notEnabled)
  else if Network.uncut sent then do
    let relay ← (pipe.relay.writeMsgToServer results curTime).mapError
      (Stop.network ∘ Network.Stop.client)
    .ok (net.setPipe c { pipe with
      relay := relay
      up := pipe.up ++ written Transmission.data Transmission.accepted sent })
  else .error (.network .cutShort)

def step (net : ByteNetwork) : Event → Except Stop ByteNetwork
  | .server (.message _ _ _) => .error (.network .notEnabled)
  | .server e => do
      let mail ← (net.mail.step (.server e)).mapError (Stop.network ∘ Network.Stop.server)
      .ok { net with mail := mail }
  | .serverReads c chunk now => net.serverReads c chunk now
  | .serverWrites c results curTime => net.serverWrites c results curTime
  | .clientReads c chunk => net.clientReads c chunk
  | .clientAsks c msg connect => .ok (net.clientAsks c msg connect)
  | .clientWrites c results curTime => net.clientWrites c results curTime

abbrev run : ByteNetwork → List Event → Except Stop ByteNetwork := Runs.run step

/-- A read that finds a message begun goes on with it. With the numbers that the counters give
none can, so that no read finds one. -/
def GoesOn (net : ByteNetwork) : Event → Prop
  | .serverReads c chunk _ => Resumes (net.pipes c).reader chunk
  | .clientReads c chunk => Resumes (net.pipes c).clientReader chunk
  | _ => True

end ByteNetwork

theorem written_uncut {sent : List Transmission} (uncut : Network.uncut sent = true) :
    written Transmission.data Transmission.accepted sent =
      encodings (sent.map Transmission.msg) := by
  have whole (transmission : Transmission) (member : transmission ∈ sent) :
      Whole Transmission.data Transmission.accepted transmission := by
    have size := of_decide_eq_true (List.all_eq_true.mp uncut transmission member)
    rw [Whole, Transmission.data, Message.getData_length, size]
  rw [written_whole _ _ whole, encodings, stream, stream, List.flatMap_map]

/-- The messages of the wire are those that the bytes of the pipe still spell. -/
structure Pipe.Carries (pipe : Pipe) (wire : Wire) : Prop where
  heard : wire.relay.heard = pipe.relay.heard
  read : wire.relay.line.read = pipe.relay.line.read
  toServer : wire.relay.toServer = pipe.relay.toServer
  toInterface : wire.relay.toInterface = pipe.relay.toInterface
  connected : wire.relay.hasServerConnection = true ∧ pipe.relay.hasServerConnection = true
  serverFd : pipe.relay.serverFd = 3
  idle : pipe.relay.fromServer = []
  down : Midway pipe.relay.bufFromServer wire.down pipe.down
  downQueue : pipe.relay.bufFromServer.msgQueue = []
  arrived : wire.arrived = pipe.reader.extracted
  up : Midway pipe.reader.buffer wire.up pipe.up
  upQueue : pipe.reader.buffer.msgQueue = []

namespace ClientServer

variable {cs cs' : ClientServer}

theorem readMsgFromServer_some {chunk : List UInt8} {socket : Int}
    (connected : cs.hasServerConnection = true) (fd : cs.serverFd = 3) (something : chunk ≠ [])
    (room : chunk.length ≤ buffSize - cs.bufFromServer.buf.length)
    (done : cs.readMsgFromServer (some chunk) socket = .ok cs') :
    ∃ buf msgs, cs' = { cs with
        bufFromServer := buf, fromServer := cs.fromServer ++ msgs, heard := cs.heard ++ msgs } ∧
      Reader.step 3 ⟨cs.bufFromServer, cs.heard⟩ chunk = .ok ⟨buf, cs.heard ++ msgs⟩ := by
  have opened : (!cs.hasServerConnection) = false := by rw [connected, Bool.not_true]
  rw [readMsgFromServer, opened] at done
  obtain ⟨answered, read, rest⟩ := bind_ok done
  obtain ⟨err, buf⟩ := answered
  rw [fd] at read
  change cs.bufFromServer.readMsg ((3 : Nat) : Int) (some chunk) = _ at read
  obtain ⟨rfl, stepped⟩ := readMsg_some something room read cs.heard
  obtain rfl := Except.ok.inj rest
  exact ⟨_, _, rfl, stepped⟩

/-- A connected client process tells the interface the same whatever else its state is. -/
theorem processCmd_connected (msg : Message) (connect : Int) :
    ∃ told, ∀ cs : ClientServer, cs.hasServerConnection = true →
      cs.processCmd msg connect = { cs with
        toServer := ([msg].filter Message.requested).foldl Outgoing.sendMsg cs.toServer
        toInterface := cs.toInterface ++ told } := by
  obtain ⟨id, body⟩ := msg
  cases body with
  | serverConnStatusReq =>
      refine ⟨[Message.new (.serverConnStatus true)], fun cs connected => ?_⟩
      rw [← connected]
      rfl
  | serverConnReq =>
      refine ⟨[Message.new (.serverConnStatus true)], fun cs connected => ?_⟩
      have same : cs.connectToServer connect = cs := if_pos connected
      rw [processCmd, processServerConnReqMsg, same, ← connected]
      rfl
  | _ =>
      refine ⟨[], fun cs _ => ?_⟩
      rw [List.append_nil]
      rfl

end ClientServer

def Wire.afterArrival (wire : Wire) (msgs up : List Message) : Wire :=
  { wire with up := up, arrived := wire.arrived ++ msgs }

/-- The client process has heard messages, and `down` is left. -/
def Wire.afterHearing (wire : Wire) (msgs down : List Message) (out : Outgoing) : Wire :=
  { wire with
    down := down
    relay := { wire.relay with
      heard := wire.relay.heard ++ msgs
      toInterface := wire.relay.toInterface ++ msgs.filter Message.redirected
      toServer := out } }

theorem Wire.afterArrival_afterArrival (wire : Wire) (msgs msgs' up up' : List Message) :
    (wire.afterArrival msgs up).afterArrival msgs' up' = wire.afterArrival (msgs ++ msgs') up' := by
  simp only [afterArrival, List.append_assoc]

theorem Wire.afterHearing_afterHearing (wire : Wire) (msgs msgs' down down' : List Message)
    (out out' : Outgoing) : (wire.afterHearing msgs down out).afterHearing msgs' down' out' =
      wire.afterHearing (msgs ++ msgs') down' out' := by
  simp only [afterHearing, List.append_assoc, List.filter_append]

namespace Network

variable {net : Network} {c : ClientId}

theorem setWire_setWire (net : Network) (c : ClientId) (wire wire' : Wire) :
    (net.setWire c wire).setWire c wire' = net.setWire c wire' := by
  simp only [setWire, Function.update_idem]

theorem setWire_eq_self (net : Network) (c : ClientId) : net.setWire c (net.wires c) = net := by
  simp only [setWire, Function.update_eq_self]

theorem serverReads_ok {now : Int64} {msg : Message} {up : List Message} {mail : Mail}
    (next : (net.wires c).up = msg :: up)
    (done : net.mail.step (.server (.message c msg now)) = .ok mail) :
    net.step (.serverReads c now) =
      .ok ({ net with mail := mail }.setWire c ((net.wires c).afterArrival [msg] up)) := by
  simp only [step, serverReads, next, done, Except.mapError, Bind.bind, Except.bind]
  rfl

theorem serverWrites_ok {results : List (Int × Int)} {curTime : Int} {mail : Mail}
    (whole : uncut ((net.mail.outgoing c).transmissions (net.mail.outgoing c).toSendMsg results))
    (done : net.mail.step (.write c results curTime) = .ok mail) :
    net.step (.serverWrites c results curTime) = .ok ({ net with mail := mail }.setWire c
      { net.wires c with
        down := (net.wires c).down ++ ((net.mail.outgoing c).transmissions
          (net.mail.outgoing c).toSendMsg results).map Transmission.msg }) := by
  simp only [step, serverWrites, whole, ↓reduceIte, done, Except.mapError, Bind.bind, Except.bind]

theorem clientReads_ok {msg : Message} {down : List Message} {out : Outgoing}
    (next : (net.wires c).down = msg :: down)
    (done : Outgoing.step (net.wires c).relay.toServer (ClientServer.answer msg) = .ok out) :
    net.step (.clientReads c) =
      .ok (net.setWire c ((net.wires c).afterHearing [msg] down out)) := by
  let heard := { (net.wires c).relay with heard := (net.wires c).relay.heard ++ [msg] }
  have ready : Outgoing.step heard.toServer (ClientServer.answer msg) = .ok out := done
  simp only [step, clientReads, next]
  rw [heard.processMsg_eq, ready]
  rfl

theorem clientWrites_ok {results : List (Int × Int)} {curTime : Int} {out : Outgoing}
    (connected : (net.wires c).relay.hasServerConnection = true)
    (whole : uncut ((net.wires c).relay.toServer.transmissions
      (net.wires c).relay.toServer.toSendMsg results))
    (done : (net.wires c).relay.toServer.writeMsg results curTime = .ok out) :
    net.step (.clientWrites c results curTime) = .ok (net.setWire c { net.wires c with
      relay := { (net.wires c).relay with toServer := out }
      up := (net.wires c).up ++ ((net.wires c).relay.toServer.transmissions
        (net.wires c).relay.toServer.toSendMsg results).map Transmission.msg }) := by
  simp only [step, clientWrites, ClientServer.writeMsgToServer, connected, Bool.not_true,
    Bool.false_eq_true, whole, ↓reduceIte, done, Except.mapError, Bind.bind, Except.bind]

theorem run_serverReads {now : Int64} {mail : Mail} (msgs : List Message) {up : List Message}
    (next : (net.wires c).up = msgs ++ up)
    (done : net.mail.run (msgs.map fun msg => .server (.message c msg now)) = .ok mail) :
    net.run (msgs.map fun _ => .serverReads c now) =
      .ok ({ net with mail := mail }.setWire c ((net.wires c).afterArrival msgs up)) := by
  induction msgs generalizing net with
  | nil =>
      obtain rfl := Except.ok.inj done
      have same : up = (net.wires c).up := next.symm
      rw [same, Wire.afterArrival, List.append_nil]
      exact congrArg Except.ok (net.setWire_eq_self c).symm
  | cons msg msgs ih =>
      obtain ⟨mail₁, first, rest⟩ := run_cons Mail.step done
      have stepped := serverReads_ok next first
      have here := setWire_self { net with mail := mail₁ } c
        ((net.wires c).afterArrival [msg] (msgs ++ up))
      have later := ih (congrArg Wire.up here) rest
      rw [here, Wire.afterArrival_afterArrival] at later
      refine ((run_cons_ok Network.step stepped).mpr later).trans (congrArg Except.ok ?_)
      exact setWire_setWire { net with mail := mail } ..

theorem run_clientReads {out : Outgoing} (msgs : List Message) {down : List Message}
    (next : (net.wires c).down = msgs ++ down)
    (done : Outgoing.run (net.wires c).relay.toServer (msgs.map ClientServer.answer) = .ok out) :
    net.run (msgs.map fun _ => .clientReads c) =
      .ok (net.setWire c ((net.wires c).afterHearing msgs down out)) := by
  induction msgs generalizing net with
  | nil =>
      obtain rfl := Except.ok.inj done
      have same : down = (net.wires c).down := next.symm
      rw [same, Wire.afterHearing, List.filter_nil, List.append_nil, List.append_nil]
      exact congrArg Except.ok (net.setWire_eq_self c).symm
  | cons msg msgs ih =>
      obtain ⟨out₁, first, rest⟩ := run_cons Outgoing.step done
      have stepped := clientReads_ok next first
      have here := setWire_self net c ((net.wires c).afterHearing [msg] (msgs ++ down) out₁)
      have same := congrArg (fun wire : Wire => wire.relay.toServer) here
      have later := ih (congrArg Wire.down here)
        ((congrArg (Outgoing.run · (msgs.map ClientServer.answer)) same).trans rest)
      rw [here, Wire.afterHearing_afterHearing, setWire_setWire] at later
      exact (run_cons_ok Network.step stepped).mpr later

end Network

namespace ByteNetwork

/-- The same mail, and on each connection the messages that the bytes spell. -/
structure Carries (bytes : ByteNetwork) (net : Network) : Prop where
  mail : net.mail = bytes.mail
  pipes : ∀ c, (bytes.pipes c).Carries (net.wires c)

section Carries

variable {bytes bytes' : ByteNetwork} {net : Network}

theorem init_carries : init.Carries Network.init := by
  refine ⟨rfl, fun c => ?_⟩
  exact ⟨rfl, rfl, rfl, rfl, ⟨rfl, rfl⟩, rfl, rfl, .between rfl rfl, rfl, rfl, .between rfl rfl, rfl⟩

theorem Carries.become (carries : bytes.Carries net) (mail : Mail) :
    { bytes with mail := mail }.Carries { net with mail := mail } := ⟨rfl, carries.pipes⟩

theorem Carries.set (carries : bytes.Carries net) {c : ClientId} {pipe : Pipe} {wire : Wire}
    (carried : pipe.Carries wire) : (bytes.setPipe c pipe).Carries (net.setWire c wire) := by
  refine ⟨carries.mail, fun d => ?_⟩
  by_cases same : d = c
  · subst same
    rw [setPipe_self, Network.setWire_self]
    exact carried
  · rw [setPipe_of_ne _ same, Network.setWire_of_ne _ same]
    exact carries.pipes d

theorem Carries.serverReads (carries : bytes.Carries net) {c : ClientId} {chunk : List UInt8}
    {now : Int64} (resumes : Resumes (bytes.pipes c).reader chunk)
    (done : bytes.serverReads c chunk now = .ok bytes') :
    ∃ es net', net.run es = .ok net' ∧ bytes'.Carries net' := by
  unfold ByteNetwork.serverReads at done
  dsimp only at done
  split_ifs at done with take
  obtain ⟨reader, read, rest⟩ := bind_ok done
  obtain ⟨mail, processed, last⟩ := bind_ok rest
  obtain rfl := Except.ok.inj last
  have pipe := carries.pipes c
  obtain ⟨msgs, up, split, extracted, midway, queue⟩ :=
    pipe.up.takes pipe.upQueue take.1 take.2.1 take.2.2 resumes (mapError_ok read)
  rw [extracted, List.drop_left] at processed
  rw [← carries.mail] at processed
  have ran := Network.run_serverReads msgs split (mapError_ok processed)
  refine ⟨_, _, ran, (carries.become mail).set ?_⟩
  refine { pipe with arrived := ?_, up := midway, upQueue := queue }
  exact (congrArg (· ++ msgs) pipe.arrived).trans extracted.symm

theorem Carries.clientReads (carries : bytes.Carries net) {c : ClientId} {chunk : List UInt8}
    (resumes : Resumes (bytes.pipes c).clientReader chunk)
    (done : bytes.clientReads c chunk = .ok bytes') :
    ∃ es net', net.run es = .ok net' ∧ bytes'.Carries net' := by
  unfold ByteNetwork.clientReads at done
  dsimp only at done
  split_ifs at done with take
  obtain ⟨relay₁, read, rest⟩ := bind_ok done
  obtain ⟨relay, processed, last⟩ := bind_ok rest
  obtain rfl := Except.ok.inj last
  have pipe := carries.pipes c
  obtain ⟨buf, msgs, rfl, stepped⟩ := ClientServer.readMsgFromServer_some pipe.connected.2
    pipe.serverFd take.1 take.2.2 (mapError_ok read)
  have midway : Midway (bytes.pipes c).clientReader.buffer (net.wires c).down
      (bytes.pipes c).down := pipe.down
  obtain ⟨msgs', down, split, extracted, midway', queue⟩ :=
    midway.takes pipe.downQueue take.1 take.2.1 take.2.2 resumes stepped
  obtain rfl := List.append_cancel_left extracted
  obtain ⟨out, ran, rfl⟩ := ClientServer.processMsgs_spec (mapError_ok processed)
  have answered : Outgoing.run (net.wires c).relay.toServer
      (msgs.map ClientServer.answer) = .ok out := by
    rw [pipe.toServer]
    rwa [pipe.idle, List.nil_append] at ran
  refine ⟨_, _, Network.run_clientReads msgs split answered, carries.set ?_⟩
  refine { pipe with
    heard := ?_
    toServer := rfl
    toInterface := ?_
    idle := rfl
    down := midway'
    downQueue := queue }
  · exact congrArg (· ++ msgs) pipe.heard
  · dsimp only [Wire.afterHearing]
    rw [pipe.toInterface, pipe.idle, List.nil_append]

theorem Carries.serverWrites (carries : bytes.Carries net) {c : ClientId}
    {results : List (Int × Int)} {curTime : Int}
    (done : bytes.serverWrites c results curTime = .ok bytes') :
    ∃ es net', net.run es = .ok net' ∧ bytes'.Carries net' := by
  unfold ByteNetwork.serverWrites at done
  dsimp only at done
  split_ifs at done with uncut
  obtain ⟨mail, wrote, last⟩ := bind_ok done
  obtain rfl := Except.ok.inj last
  have pipe := carries.pipes c
  rw [← carries.mail] at uncut wrote ⊢
  have stepped := Network.serverWrites_ok uncut (mapError_ok wrote)
  refine ⟨[_], _, (run_cons_ok Network.step stepped).mpr rfl, (carries.become mail).set ?_⟩
  refine { pipe with down := ?_ }
  rw [written_uncut uncut]
  exact pipe.down.more _

theorem Carries.clientAsks (carries : bytes.Carries net) (c : ClientId) (msg : Message)
    (connect : Int) : (bytes.clientAsks c msg connect).Carries (net.clientAsks c msg connect) := by
  have pipe := carries.pipes c
  refine carries.set ?_
  let line (relay : ClientServer) : ClientServer :=
    { relay with line := { relay.line with read := relay.line.read ++ [msg] } }
  obtain ⟨told, processed⟩ := ClientServer.processCmd_connected msg connect
  have first := processed (line (bytes.pipes c).relay) pipe.connected.2
  have second := processed (line (net.wires c).relay) pipe.connected.1
  change Pipe.Carries
    { bytes.pipes c with relay := (line (bytes.pipes c).relay).processCmd msg connect }
    { net.wires c with relay := (line (net.wires c).relay).processCmd msg connect }
  rw [first, second]
  refine { pipe with read := ?_, toServer := ?_, toInterface := ?_ }
  · exact congrArg (· ++ [msg]) pipe.read
  · exact congrArg (List.foldl Outgoing.sendMsg · _) pipe.toServer
  · exact congrArg (· ++ told) pipe.toInterface

theorem Carries.clientWrites (carries : bytes.Carries net) {c : ClientId}
    {results : List (Int × Int)} {curTime : Int}
    (done : bytes.clientWrites c results curTime = .ok bytes') :
    ∃ es net', net.run es = .ok net' ∧ bytes'.Carries net' := by
  have pipe := carries.pipes c
  unfold ByteNetwork.clientWrites at done
  dsimp only at done
  split_ifs at done with lost uncut
  obtain ⟨relay, wrote, last⟩ := bind_ok done
  obtain rfl := Except.ok.inj last
  replace wrote := mapError_ok wrote
  rw [ClientServer.writeMsgToServer, pipe.connected.2] at wrote
  obtain ⟨out, sent, rest⟩ := bind_ok wrote
  obtain rfl := Except.ok.inj rest
  rw [← pipe.toServer] at uncut sent ⊢
  have stepped := Network.clientWrites_ok pipe.connected.1 uncut sent
  refine ⟨[_], _, (run_cons_ok Network.step stepped).mpr rfl, carries.set ?_⟩
  refine { pipe with
    toServer := rfl
    connected := ⟨pipe.connected.1, rfl⟩
    up := ?_ }
  rw [written_uncut uncut]
  exact pipe.up.more _

theorem Carries.step (carries : bytes.Carries net) {e : Event} (goesOn : bytes.GoesOn e)
    (done : bytes.step e = .ok bytes') :
    ∃ es net', net.run es = .ok net' ∧ bytes'.Carries net' := by
  cases e with
  | server e =>
      have stepped : ∃ mail, net.step (.server e) = .ok { net with mail := mail } ∧
          bytes' = { bytes with mail := mail } := by
        cases e with
        | message => cases done
        | _ =>
            obtain ⟨mail, first, rest⟩ := bind_ok done
            rw [← carries.mail] at first
            refine ⟨mail, ?_, (Except.ok.inj rest).symm⟩
            simp only [Network.step, mapError_ok first, Except.mapError, Bind.bind, Except.bind]
      obtain ⟨mail, stepped, rfl⟩ := stepped
      exact ⟨[.server e], _, (run_cons_ok Network.step stepped).mpr rfl, carries.become mail⟩
  | serverReads c chunk now => exact carries.serverReads goesOn done
  | serverWrites c results curTime => exact carries.serverWrites done
  | clientReads c chunk => exact carries.clientReads goesOn done
  | clientAsks c msg connect =>
      obtain rfl := Except.ok.inj done
      exact ⟨[.clientAsks c msg connect], _, rfl, carries.clientAsks c msg connect⟩
  | clientWrites c results curTime => exact carries.clientWrites done

theorem Carries.run (carries : bytes.Carries net) {es : List Event}
    (goesOn : AllSteps ByteNetwork.step GoesOn bytes es) (done : bytes.run es = .ok bytes') :
    ∃ es' net', net.run es' = .ok net' ∧ bytes'.Carries net' := by
  induction es generalizing bytes net with
  | nil =>
      obtain rfl := Except.ok.inj done
      exact ⟨[], net, rfl, carries⟩
  | cons e es ih =>
      obtain ⟨bytes₁, first, rest⟩ := run_cons ByteNetwork.step done
      obtain ⟨here, later⟩ := goesOn
      obtain ⟨es₁, net₁, ran₁, carries₁⟩ := carries.step here first
      obtain ⟨es₂, net₂, ran₂, carries₂⟩ := ih carries₁ (later bytes₁ first) rest
      exact ⟨es₁ ++ es₂, net₂, (run_append_ok Network.step).mpr ⟨net₁, ran₁, ran₂⟩, carries₂⟩

theorem run_carries {es : List Event} (goesOn : AllSteps ByteNetwork.step GoesOn init es)
    (done : init.run es = .ok bytes) :
    ∃ es' net, Network.init.run es' = .ok net ∧ bytes.Carries net :=
  init_carries.run goesOn done

theorem Carries.heard (carries : bytes.Carries net) {log : ClientId → List Transmission}
    (booked : net.Booked log) (few : bytes.mail.sent < 2 ^ 63) {c : ClientId}
    {chunk : List UInt8} {now : Int64} (resumes : Resumes (bytes.pipes c).reader chunk)
    (read : bytes.serverReads c chunk now = .ok bytes') {receipt : Message}
    (arrives : receipt ∈ (bytes'.pipes c).reader.extracted.drop
      (bytes.pipes c).reader.extracted.length) {id : Int64} (names : receipt.body = .receipt id)
    {item : ListItem} (controlled : item ∈ (bytes.mail.out c).control) {msg : Message}
    (object : (bytes.mail.out c).objects item.msg = some msg) (same : msg.id = id) :
    msg ∈ (bytes.pipes c).relay.heard := by
  have pipe := carries.pipes c
  unfold ByteNetwork.serverReads at read
  dsimp only at read
  split_ifs at read with take
  obtain ⟨reader, stepped, rest⟩ := bind_ok read
  obtain ⟨mail, _, last⟩ := bind_ok rest
  obtain rfl := Except.ok.inj last
  obtain ⟨msgs, up, split, extracted, _, _⟩ :=
    pipe.up.takes pipe.upQueue take.1 take.2.1 take.2.2 resumes (mapError_ok stepped)
  rw [setPipe_self, extracted, List.drop_left] at arrives
  rw [← carries.mail] at few controlled object
  rw [← pipe.heard]
  exact booked.heard few (split ▸ List.mem_append_left up arrives) names controlled object same

end Carries

/-- The check whether each read starts with no message begun. -/
def fresh (net : ByteNetwork) : Event → Bool
  | .serverReads c _ _ => (net.pipes c).reader.buffer.toExtractMsg.isNone
  | .clientReads c _ => (net.pipes c).relay.bufFromServer.toExtractMsg.isNone
  | _ => true

theorem goesOn_of_fresh (net : ByteNetwork) (e : Event) (clear : net.fresh e = true) :
    net.GoesOn e := by
  have resumes {reader : Reader} {chunk : List UInt8}
      (none : reader.buffer.toExtractMsg.isNone = true) : Resumes reader chunk := by
    intro frag pending
    rw [pending] at none
    cases none
  cases e with
  | serverReads => exact resumes clear
  | clientReads => exact resumes clear
  | _ => trivial

end ByteNetwork

/-- A client asks for a session and writes its receipt of the answer. -/
def firstChunks : List ByteNetwork.Event :=
  [.server .accept, .clientAsks 0 (Message.new .gameSessionReq) 0, .clientWrites 0 [(13, 0)] 0,
    .serverReads 0 (encodings [⟨1, .gameSessionReq⟩]) 0, .serverWrites 0 [(17, 0), (21, 0)] 0,
    .clientReads 0 (encodings [⟨1, .gameState 1⟩, ⟨-1, .receipt 1⟩]),
    .clientWrites 0 [(21, 0)] 0]

def receiptChunk : List UInt8 := encodings [⟨-1, .receipt 1⟩]

theorem firstChunks_goesOn :
    AllSteps ByteNetwork.step ByteNetwork.GoesOn ByteNetwork.init firstChunks := by
  refine allSteps_of_check ByteNetwork.step ByteNetwork.goesOn_of_fresh ?_
  decide +kernel

theorem firstChunks_run : ∃ bytes bytes', ByteNetwork.init.run firstChunks = .ok bytes ∧
    bytes.step (.serverReads 0 receiptChunk 0) = .ok bytes' ∧ bytes.mail.sent = 2 ∧
    bytes.mail.srv.clients 0 ≠ none ∧ (bytes.mail.out 0).ids = [1] ∧ (bytes.pipes 0).down = [] ∧
    (bytes.pipes 0).relay.bufFromServer.toExtractMsg = none ∧
    (bytes.pipes 0).reader.buffer.toExtractMsg = none ∧
    (((bytes'.pipes 0).reader.extracted.drop (bytes.pipes 0).reader.extracted.length).filterMap
      fun msg : Message => msg.body.receiptFor) = [1] := by
  let view (both : ByteNetwork × ByteNetwork) :=
    (both.1.mail.sent, (both.1.mail.out 0).ids,
      ((both.1.mail.srv.clients 0).isSome && (both.1.pipes 0).down.isEmpty &&
        (both.1.pipes 0).relay.bufFromServer.toExtractMsg.isNone &&
        (both.1.pipes 0).reader.buffer.toExtractMsg.isNone : Bool),
      ((both.2.pipes 0).reader.extracted.drop (both.1.pipes 0).reader.extracted.length).filterMap
        fun msg : Message => msg.body.receiptFor)
  obtain ⟨both, ran, shown⟩ := ok_of_map view
    (show (ByteNetwork.init.run firstChunks >>= fun bytes =>
        (bytes.step (.serverReads 0 receiptChunk 0)).map fun bytes' => (bytes, bytes')).map view =
      .ok (2, [1], true, [1]) by decide +kernel)
  obtain ⟨bytes, first, rest⟩ := bind_ok ran
  obtain ⟨bytes', last, rfl⟩ := ok_of_map _ rest
  simp only [view, Prod.mk.injEq, Bool.and_eq_true, Option.isNone_iff_eq_none,
    Option.isSome_iff_ne_none, List.isEmpty_iff] at shown
  obtain ⟨sent, ids, ⟨⟨⟨alive, down⟩, clear⟩, clear'⟩, receipts⟩ := shown
  exact ⟨bytes, bytes', first, last, sent, alive, ids, down, clear, clear', receipts⟩

/-- As long as no read spoils a half-read message, what the server and the client processes do is
what they do with whole messages under way: the bytes on a connection spell the messages that
are on it. -/
theorem bytes_refine {es : List ByteNetwork.Event} {bytes : ByteNetwork}
    (goesOn : AllSteps ByteNetwork.step ByteNetwork.GoesOn ByteNetwork.init es)
    (done : ByteNetwork.init.run es = .ok bytes) :
    ∃ es' net, Network.init.run es' = .ok net ∧ net.mail = bytes.mail ∧
      ∀ c, (bytes.pipes c).Carries (net.wires c) := by
  obtain ⟨es', net, ran, carries⟩ := ByteNetwork.run_carries goesOn done
  exact ⟨es', net, ran, carries.mail, carries.pipes⟩

theorem bytes_refine_firstChunks : ∃ bytes es' net, ByteNetwork.init.run firstChunks = .ok bytes ∧
    Network.init.run es' = .ok net ∧ (bytes.pipes 0).Carries (net.wires 0) := by
  obtain ⟨bytes, _, done, _⟩ := firstChunks_run
  obtain ⟨es', net, ran, _, carries⟩ := bytes_refine firstChunks_goesOn done
  exact ⟨bytes, es', net, done, ran, carries 0⟩

/-- When no bytes are under way and no message is begun, all that the server has queued for a
connected client was heard or waits to be written; and the same of the player's requests. -/
theorem quiet_delivers {es : List ByteNetwork.Event} {bytes : ByteNetwork}
    (goesOn : AllSteps ByteNetwork.step ByteNetwork.GoesOn ByteNetwork.init es)
    (done : ByteNetwork.init.run es = .ok bytes) (c : ClientId) :
    (bytes.mail.srv.clients c ≠ none → (bytes.pipes c).down = [] →
      (bytes.pipes c).relay.bufFromServer.toExtractMsg = none →
      ((bytes.mail.srv.toSendMsg c).map Message.body).Subperm
        ((bytes.pipes c).relay.heard.map Message.body ++
          (bytes.mail.out c).waitingBodies (bytes.mail.out c).toSendMsg)) ∧
      ((bytes.pipes c).up = [] → (bytes.pipes c).reader.buffer.toExtractMsg = none →
      (((bytes.pipes c).relay.line.read.filter Message.requested).map Message.body).Subperm
        ((bytes.pipes c).reader.extracted.map Message.body ++
          (bytes.pipes c).relay.toServer.waitingBodies
            (bytes.pipes c).relay.toServer.toSendMsg)) := by
  obtain ⟨es', net, ran, carries⟩ := ByteNetwork.run_carries goesOn done
  obtain ⟨log, booked⟩ := Network.run_booked ran
  have pipe := carries.pipes c
  constructor
  · intro alive empty clear
    have none := (pipe.down.finished empty).mp clear
    rw [← carries.mail] at alive ⊢
    have all := booked.downwards c alive
    rwa [none, List.append_nil, pipe.heard] at all
  · intro empty clear
    have none := (pipe.up.finished empty).mp clear
    have all := booked.upwards c
    rwa [none, List.append_nil, pipe.arrived, pipe.read, pipe.toServer] at all

theorem quiet_delivers_firstChunks : ∃ bytes, ByteNetwork.init.run firstChunks = .ok bytes ∧
    ((bytes.mail.srv.toSendMsg 0).map Message.body).Subperm
      ((bytes.pipes 0).relay.heard.map Message.body ++
        (bytes.mail.out 0).waitingBodies (bytes.mail.out 0).toSendMsg) := by
  obtain ⟨bytes, _, done, _, _, alive, _, down, clear, _, _⟩ := firstChunks_run
  exact ⟨bytes, done, (quiet_delivers firstChunks_goesOn done 0).1 alive down clear⟩

/-- While fewer than 2 ^ 63 messages were sent, the receipts that the server's next read brings name
no message under control that the client process has not heard. -/
theorem read_receipts_heard {es : List ByteNetwork.Event} {bytes bytes' : ByteNetwork}
    (goesOn : AllSteps ByteNetwork.step ByteNetwork.GoesOn ByteNetwork.init es)
    (done : ByteNetwork.init.run es = .ok bytes) (few : bytes.mail.sent < 2 ^ 63) {c : ClientId}
    {chunk : List UInt8} {now : Int64} (resumes : Resumes (bytes.pipes c).reader chunk)
    (read : bytes.step (.serverReads c chunk now) = .ok bytes') {receipt : Message}
    (arrives : receipt ∈ (bytes'.pipes c).reader.extracted.drop
      (bytes.pipes c).reader.extracted.length) {id : Int64} (names : receipt.body = .receipt id)
    {item : ListItem} (controlled : item ∈ (bytes.mail.out c).control) {msg : Message}
    (object : (bytes.mail.out c).objects item.msg = some msg) (same : msg.id = id) :
    msg ∈ (bytes.pipes c).relay.heard := by
  obtain ⟨es', net, ran, carries⟩ := ByteNetwork.run_carries goesOn done
  obtain ⟨log, booked⟩ := Network.run_booked ran
  exact carries.heard booked few resumes read arrives names controlled object same

theorem read_receipts_heard_firstChunks : ∃ bytes, ByteNetwork.init.run firstChunks = .ok bytes ∧
    ∃ item ∈ (bytes.mail.out 0).control, ∃ msg, (bytes.mail.out 0).objects item.msg = some msg ∧
      msg.id = 1 ∧ msg ∈ (bytes.pipes 0).relay.heard := by
  obtain ⟨bytes, bytes', done, read, sent, _, ids, _, _, clear, receipts⟩ := firstChunks_run
  obtain ⟨receipt, arrives, named⟩ := List.mem_filterMap.mp
    (receipts ▸ List.mem_singleton_self (1 : Int64))
  obtain ⟨item, controlled, number⟩ := List.mem_filterMap.mp
    (ids ▸ List.mem_singleton_self (1 : Int64))
  obtain ⟨msg, object, same⟩ := Option.map_eq_some_iff.mp number
  have names : receipt.body = .receipt 1 := Body.eq_receipt named
  have resumes : Resumes (bytes.pipes 0).reader receiptChunk :=
    ByteNetwork.goesOn_of_fresh bytes (.serverReads 0 receiptChunk 0)
      (Option.isNone_iff_eq_none.mpr clear)
  exact ⟨bytes, done, item, controlled, msg, object, same, read_receipts_heard firstChunks_goesOn
    done (by omega) resumes read arrives names controlled object same⟩

end Battleship
