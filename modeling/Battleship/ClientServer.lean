import Battleship.Mail

/-! The client process of client/server/client_server.cpp. It passes the messages of the
server on to the interface process and the player's requests to the server, acknowledges
what the server sends, and tells the interface process whether there is a connection. -/
namespace Battleship

open Runs

structure ClientServer where
  serverFd : Int
  hasServerConnection : Bool
  interfaceFd : Nat
  quitFlag : Bool
  bufFromServer : MsgBuffer
  bufFromInterface : MsgBuffer
  fromServer : List Message
  fromInterface : List Message
  /-- `to_server_msg` and `delivery_control`. -/
  toServer : Outgoing
  toInterface : List Message
  /-- The messages that were read from the server; they are not kept. -/
  heard : List Message
  line : Line

namespace ClientServer

def init (serverFd : Int) (interfaceFd : Nat) : ClientServer where
  serverFd := serverFd
  hasServerConnection := false
  interfaceFd := interfaceFd
  quitFlag := false
  bufFromServer := MsgBuffer.init
  bufFromInterface := MsgBuffer.init
  fromServer := []
  fromInterface := []
  toServer := Outgoing.init defaultResendCnt defaultResendTime
  toInterface := []
  heard := []
  line := Line.init

/-! ### The connection -/

def sendServerConnStatus (cs : ClientServer) : ClientServer :=
  { cs with toInterface :=
      cs.toInterface ++ [Message.new (.serverConnStatus cs.hasServerConnection)] }

/-- `socket` is what the call of that name returns. Neither the buffer nor the queue and the
messages under control are emptied. -/
def onBrokenServerConn (cs : ClientServer) (socket : Int) : ClientServer :=
  { cs with serverFd := socket, hasServerConnection := false }.sendServerConnStatus

def connectToServer (cs : ClientServer) (connect : Int) : ClientServer :=
  if cs.hasServerConnection then cs
  else if connect = -1 then cs
  else { cs with hasServerConnection := true }

/-! ### Reading -/

def readMsgFromServer (cs : ClientServer) (answer : Option (List UInt8)) (socket : Int) :
    Except BufFault ClientServer :=
  if !cs.hasServerConnection then .ok cs
  else do
    let (err, buf) ← cs.bufFromServer.readMsg cs.serverFd answer
    if err = .buffOk then
      let (msgs, buf) := buf.drain
      .ok { cs with
        bufFromServer := buf
        fromServer := cs.fromServer ++ msgs
        heard := cs.heard ++ msgs }
    else
      let cs := { cs with bufFromServer := buf }
      if err = .connBroken then .ok (cs.onBrokenServerConn socket) else .ok cs

def readMsgFromInterface (cs : ClientServer) (answer : Option (List UInt8)) :
    Except BufFault ClientServer := do
  let (err, buf) ← cs.bufFromInterface.readMsg cs.interfaceFd answer
  if err = .buffOk then
    let (msgs, buf) := buf.drain
    .ok { cs with
      bufFromInterface := buf
      fromInterface := cs.fromInterface ++ msgs
      line := { cs.line with read := cs.line.read ++ msgs } }
  else .ok { cs with
      bufFromInterface := buf
      quitFlag := cs.quitFlag || decide (err = .connBroken) }

/-! ### Writing -/

def writeMsgToServer (cs : ClientServer) (results : List (Int × Int)) (curTime : Int) :
    Except MsgFault ClientServer :=
  if !cs.hasServerConnection then .ok cs
  else do .ok { cs with toServer := ← cs.toServer.writeMsg results curTime }

def writeMsgToInterface (cs : ClientServer) (results : List Int) : ClientServer :=
  let (line, queue) := cs.line.writeLoop cs.toInterface results
  { cs with line := line, toInterface := queue }

/-! ### Messages from the server -/

def redirectToInterface (cs : ClientServer) (msg : Message) : ClientServer :=
  { cs with toInterface := cs.toInterface ++ [msg] }

def redirectToServer (cs : ClientServer) (msg : Message) : ClientServer :=
  { cs with toServer := cs.toServer.sendMsg msg }

def sendReceipt (cs : ClientServer) (id : Int64) : ClientServer :=
  { cs with toServer := cs.toServer.sendMsg (Message.new (.receipt id)) }

def processReceiptMsg (cs : ClientServer) (reqMsgId : Int64) : Except MsgFault ClientServer := do
  .ok { cs with toServer := ← cs.toServer.processCheck reqMsgId }

def processMsg (cs : ClientServer) (msg : Message) : Except MsgFault ClientServer := do
  let cs ← (match msg.body with
    | .gameSessionReq | .serverConnStatusReq | .gameMove _ _ | .serverConnReq => .ok cs
    | .receipt reqMsgId => cs.processReceiptMsg reqMsgId
    | _ => .ok (cs.redirectToInterface msg))
  if msg.type ≠ .receipt then .ok (cs.sendReceipt msg.id) else .ok cs

def processMsgs : ClientServer → List Message → Except MsgFault ClientServer
  | cs, [] => .ok cs
  | cs, msg :: msgs => do processMsgs (← cs.processMsg msg) msgs

def processMsgFromServer (cs : ClientServer) : Except MsgFault ClientServer :=
  processMsgs { cs with fromServer := [] } cs.fromServer

/-! ### Requests of the player -/

def processServerConnReqMsg (cs : ClientServer) (connect : Int) : ClientServer :=
  (cs.connectToServer connect).sendServerConnStatus

def processCmd (cs : ClientServer) (msg : Message) (connect : Int) : ClientServer :=
  match msg.body with
  | .gameSessionReq | .gameField _ _ | .gameMove _ _ => cs.redirectToServer msg
  | .serverConnStatusReq => cs.sendServerConnStatus
  | .serverConnReq => cs.processServerConnReqMsg connect
  | _ => cs

/-- The loop of `_process_cmd_from_interface`; `connects` is what `connect` returns, should
the message ask for a connection. -/
def processCmds : ClientServer → List Message → (Nat → Int) → ClientServer
  | cs, [], _ => cs
  | cs, msg :: msgs, connects =>
      processCmds (cs.processCmd msg (connects 0)) msgs fun n => connects (n + 1)

def processCmdFromInterface (cs : ClientServer) (connects : Nat → Int) : ClientServer :=
  processCmds { cs with fromInterface := [] } cs.fromInterface connects

/-! ### The main loop -/

/-- What comes from outside in one turn of the loop of `run`. `result` is that of `select`;
the next four say whether a descriptor is in the sets then, with what `read` and the calls
of `write` return and for the server also `time`. -/
structure Turn where
  result : Int
  serverReadable : Option (Option (List UInt8))
  serverWritable : Option (List (Int × Int) × Int)
  interfaceReadable : Option (Option (List UInt8))
  interfaceWritable : Option (List Int)
  socket : Int
  connects : Nat → Int

inductive Stop where
  | returned
  | buffer (fault : BufFault)
  | message (fault : MsgFault)
  /-- `select` adds no descriptor to the sets. -/
  | notEnabled
  deriving DecidableEq, Repr

def processServer (cs : ClientServer) (turn : Turn) : Except Stop ClientServer := do
  let cs ← (match turn.serverReadable with
    | none => .ok cs
    | some answer => (cs.readMsgFromServer answer turn.socket).mapError .buffer)
  let cs ← cs.processMsgFromServer.mapError .message
  match turn.serverWritable with
  | none => .ok cs
  | some (results, curTime) => (cs.writeMsgToServer results curTime).mapError .message

def processInterface (cs : ClientServer) (turn : Turn) : Except Stop ClientServer := do
  let cs ← (match turn.interfaceReadable with
    | none => .ok cs
    | some answer => (cs.readMsgFromInterface answer).mapError .buffer)
  let cs := cs.processCmdFromInterface turn.connects
  match turn.interfaceWritable with
  | none => .ok cs
  | some results => .ok (cs.writeMsgToInterface results)

def processFdActions (cs : ClientServer) (turn : Turn) : Except Stop ClientServer := do
  let cs ← (if cs.hasServerConnection then cs.processServer turn else .ok cs)
  cs.processInterface turn

def processSelectResult (cs : ClientServer) (turn : Turn) : Except Stop ClientServer :=
  if turn.result = -1 then .ok cs else cs.processFdActions turn

/-- Only descriptors that `_fill_fd_sets` has added can be in the sets. -/
def Enabled (cs : ClientServer) (turn : Turn) : Prop :=
  (turn.serverReadable.isSome → cs.hasServerConnection) ∧
    (turn.serverWritable.isSome → cs.hasServerConnection ∧ cs.toServer.toSendMsg ≠ []) ∧
    (turn.interfaceWritable.isSome → cs.toInterface ≠ [])

instance (cs : ClientServer) (turn : Turn) : Decidable (cs.Enabled turn) :=
  inferInstanceAs (Decidable (_ ∧ _ ∧ _))

def turn (cs : ClientServer) (turn : Turn) : Except Stop ClientServer :=
  if cs.quitFlag then .error .returned
  else if cs.Enabled turn then cs.processSelectResult turn
  else .error .notEnabled

abbrev run : ClientServer → List Turn → Except Stop ClientServer := Runs.run turn

end ClientServer
end Battleship
