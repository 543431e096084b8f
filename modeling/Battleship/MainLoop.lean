import Battleship.Crew
import Battleship.Library.SlotWalk

/-! One turn of the main cycle of server/bs_server.cpp: the descriptor sets are filled,
`select` waits, the timers run down, a connection is accepted and the clients of both
arrays are served. -/
namespace Battleship

open Runs SlotTable

structure FdSets where
  maxD : Int
  readfds : List Int
  writefds : List Int

/-- A call that `_process_fd_actions` makes on a client. -/
inductive Touch where
  | readMsg (client : ClientId)
  | writeMsg (client : ClientId)
  deriving DecidableEq, Repr

/-- What `read_msg` brings for a client: the connection is broken, or these messages have
come in. With each goes what `time` returns when `process_msg` handles it. -/
inductive Input where
  | broken
  | messages (msgs : List (Message × Int64))

/-- The server with the descriptors of its sockets. `touched` is what the current turn of
the main cycle has done to the clients. -/
structure Host where
  srv : Server
  listenFd : Int
  fd : ClientId → Int
  touched : List Touch

/-- What comes from outside in one turn of the main cycle. `ready` are the sets as `select`
leaves them and `sec`, `usec` the passed time. `accepted` is the descriptor that `accept`
returns, none if it is not called or fails. -/
structure Turn where
  readyWrite : ClientId → Bool
  result : Int
  ready : FdSets
  sec : Int
  usec : Int
  clock : HandlerId → Int64
  draws : HandlerId → List Nat
  accepted : Option Int
  input : ClientId → Input

def attempt {α : Type} (x : Except Fault α) : Except (Stop Fault) α := x.mapError .fault

namespace Server

def present (srv : Server) : List ClientId :=
  srv.clientsInGame.clients.reduceOption ++ srv.clientsQueue.clients.reduceOption

/-! ### `_fill_fd_sets` -/

def fillFor (fd : ClientId → Int) (readyWrite : ClientId → Bool) (sets : FdSets)
    (client : ClientId) : FdSets where
  maxD := if fd client > sets.maxD then fd client else sets.maxD
  readfds := sets.readfds ++ [fd client]
  writefds := if readyWrite client then sets.writefds ++ [fd client] else sets.writefds

def fillFdSets (srv : Server) (listenFd : Int) (fd : ClientId → Int)
    (readyWrite : ClientId → Bool) (fuel : Nat) : Except (Stop Fault) FdSets := do
  let visit (sets : FdSets) (client : ClientId) : Except (Stop Fault) FdSets :=
    .ok (fillFor fd readyWrite sets client)
  let sets ← walk (fun _ => srv.clientsInGame.clients) visit fuel 0 srv.clientsInGame.count
    ⟨listenFd, [listenFd], []⟩
  walk (fun _ => srv.clientsQueue.clients) visit fuel 0 srv.clientsQueue.count sets

/-! ### `_process_timeouts` -/

/-- The handlers are taken out from the front of their list, in which those that are
registered meanwhile stand last. -/
def nextTimeout (srv : Server) (next : HandlerId) : Option Handler :=
  srv.timeoutHandlers.find? fun h => next ≤ h.id

def processTimeouts (turn : Turn) : Nat → HandlerId → Server → Except (Stop Fault) Server
  | 0, _, _ => .error .outOfFuel
  | fuel + 1, next, srv =>
      match srv.nextTimeout next with
      | none => .ok srv
      | some h => do
          let srv ← attempt
            (srv.processTimeout h turn.sec turn.usec (turn.clock h.id) (turn.draws h.id))
          processTimeouts turn fuel (h.id + 1) srv

/-! ### `_process_fd_actions` -/

def processMsgs (srv : Server) (client : ClientId) (msgs : List (Message × Int64)) :
    Except Fault Server :=
  msgs.foldlM (fun srv msg => srv.processMsg client msg.1 msg.2) srv

def receive (srv : Server) (client : ClientId) : Input → Except Fault Server
  | .broken => srv.connBroken client
  | .messages msgs => srv.processMsgs client msgs

end Server

namespace Host

def openFds (host : Host) : List Int := host.listenFd :: host.srv.present.map host.fd

/-- `read_msg` is called if the descriptor is in the set. Otherwise nothing has come in. -/
def receives (host : Host) (turn : Turn) (client : ClientId) : Input :=
  if host.fd client ∈ turn.ready.readfds then turn.input client else .messages []

/-- The calls of one turn of the loops of `_process_fd_actions`. -/
def touches (host : Host) (turn : Turn) (client : ClientId) : List Touch :=
  (if host.fd client ∈ turn.ready.readfds then [.readMsg client] else []) ++
    match host.receives turn client with
    | .broken => []
    | .messages _ => if host.fd client ∈ turn.ready.writefds then [.writeMsg client] else []

def fdAction (turn : Turn) (host : Host) (client : ClientId) : Except (Stop Fault) Host := do
  let srv ← attempt (host.srv.receive client (host.receives turn client))
  .ok { host with srv := srv, touched := host.touched ++ host.touches turn client }

def processFdActions (host : Host) (turn : Turn) (fuel : Nat) : Except (Stop Fault) Host := do
  let host ← walk (fun host : Host => host.srv.clientsInGame.clients) (fdAction turn) fuel 0
    host.srv.clientsInGame.count host
  walk (fun host : Host => host.srv.clientsQueue.clients) (fdAction turn) fuel 0
    host.srv.clientsQueue.count host

abbrev accepts (host : Host) (turn : Turn) : Prop :=
  turn.result ≠ -1 ∧ turn.result ≠ 0 ∧ host.listenFd ∈ turn.ready.readfds

def acceptNewConnection (host : Host) (accepted : Option Int) : Except (Stop Fault) Host :=
  match accepted with
  | none => .ok host
  | some fd =>
      if host.srv.clientsQueue.isFull ∨ fd ∈ host.openFds then .error (.fault .notEnabled)
      else .ok { host with
        srv := host.srv.acceptNewConnection
        fd := Function.update host.fd host.srv.nextClient fd }

def processSelectResult (host : Host) (turn : Turn) (fuel : Nat) : Except (Stop Fault) Host :=
  if turn.result = -1 then .ok host
  else do
    let srv ← Server.processTimeouts turn fuel 0 host.srv
    let host := { host with srv := srv }
    if turn.result ≠ 0 then do
      let host ←
        if host.listenFd ∈ turn.ready.readfds then host.acceptNewConnection turn.accepted
        else .ok host
      host.processFdActions turn fuel
    else .ok host

/-- One turn of the main cycle. `select` takes descriptors out of the sets and adds none. -/
def cycle (fuel : Nat) (host : Host) (turn : Turn) : Except (Stop Fault) Host := do
  let sets ← host.srv.fillFdSets host.listenFd host.fd turn.readyWrite fuel
  if turn.ready.readfds ⊆ sets.readfds ∧ turn.ready.writefds ⊆ sets.writefds ∧
      (turn.accepted = none ∨ host.accepts turn) then
    processSelectResult { host with touched := [] } turn fuel
  else .error (.fault .notEnabled)

/-- The server begins to listen. -/
def init (listenFd : Int) : Host := ⟨Server.init, listenFd, fun _ => -1, []⟩

abbrev run (fuel : Nat) : Host → List Turn → Except (Stop Fault) Host := Runs.run (cycle fuel)

end Host
end Battleship
