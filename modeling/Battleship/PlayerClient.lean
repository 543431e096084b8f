import Battleship.Played
import Battleship.Chunking

/-! The two processes of a client, joined by a socket pair, taking their turns in any order. A
read brings some of the bytes that are under way. -/
namespace Battleship

open Runs Framing

/-- The buffer and all that came out of it. -/
def BattleshipGame.reader (game : BattleshipGame) : Reader := ⟨game.buf, game.line.read⟩

/-- The same for the descriptor of the interface. -/
def ClientServer.reader (cs : ClientServer) : Reader := ⟨cs.bufFromInterface, cs.line.read⟩

structure PlayerClient where
  ui : BattleshipGame
  relay : ClientServer
  /-- The bytes under way to the interface process. -/
  toUi : List UInt8
  /-- The bytes under way to the client process. -/
  toRelay : List UInt8

namespace PlayerClient

def init (clientFd : Nat) (serverFd : Int) (interfaceFd : Nat) : PlayerClient where
  ui := BattleshipGame.init clientFd
  relay := ClientServer.init serverFd interfaceFd
  toUi := []
  toRelay := []

inductive Event where
  | ui (turn : BattleshipGame.Turn)
  | relay (turn : ClientServer.Turn)

inductive Stop where
  | ui (stop : BattleshipGame.Stop)
  | relay (stop : ClientServer.Stop)
  /-- The descriptor cannot be read like this. -/
  | notEnabled
  deriving DecidableEq, Repr

/-- The bytes that a turn takes from the descriptor; none if `select` fails. -/
def chunk (result : Int) (readable : Option (Option (List UInt8))) : List UInt8 :=
  if result = -1 then [] else (readable.getD none).getD []

/-- A read brings what is under way, some of it, and no more than there is room for. It does
not end, as the other process runs. -/
def CanRead (result : Int) (readable : Option (Option (List UInt8))) (buf : MsgBuffer)
    (pipe : List UInt8) : Prop :=
  readable ≠ some (some []) ∧ chunk result readable <+: pipe ∧
    (chunk result readable).length ≤ buffSize - buf.buf.length

instance (result : Int) (readable : Option (Option (List UInt8))) (buf : MsgBuffer)
    (pipe : List UInt8) : Decidable (CanRead result readable buf pipe) :=
  inferInstanceAs (Decidable (_ ∧ _ ∧ _))

def step (player : PlayerClient) : Event → Except Stop PlayerClient
  | .ui turn =>
      if CanRead turn.result turn.readable player.ui.buf player.toUi then do
        let ui ← (player.ui.turn turn).mapError .ui
        .ok { player with
          ui := ui
          toUi := player.toUi.drop (chunk turn.result turn.readable).length
          toRelay := player.toRelay ++ ui.line.bytes.drop player.ui.line.bytes.length }
      else .error .notEnabled
  | .relay turn =>
      if CanRead turn.result turn.interfaceReadable player.relay.bufFromInterface
          player.toRelay then do
        let relay ← (player.relay.turn turn).mapError .relay
        .ok { player with
          relay := relay
          toRelay := player.toRelay.drop (chunk turn.result turn.interfaceReadable).length
          toUi := player.toUi ++ relay.line.bytes.drop player.relay.line.bytes.length }
      else .error .notEnabled

abbrev run : PlayerClient → List Event → Except Stop PlayerClient := Runs.run step

/-- Where the read of a turn leaves a message unfinished, the next one goes on with it: the buffer
does not take what follows for a new message or for more than the object holds. -/
def GoesOn (player : PlayerClient) : Event → Prop
  | .ui turn => chunk turn.result turn.readable ≠ [] →
      Resumes player.ui.reader (chunk turn.result turn.readable)
  | .relay turn => chunk turn.result turn.interfaceReadable ≠ [] →
      Resumes player.relay.reader (chunk turn.result turn.interfaceReadable)

end PlayerClient

def Flow (reader : Reader) (sent : List Message) (pipe : List UInt8) : Prop :=
  ∃ ahead, sent = reader.extracted ++ ahead ∧ Midway reader.buffer ahead pipe ∧
    reader.buffer.msgQueue = []

theorem flow_init : Flow Reader.init [] [] := ⟨[], rfl, .between rfl rfl, rfl⟩

theorem Midway.more {b : MsgBuffer} {msgs : List Message} {rest : List UInt8}
    (midway : Midway b msgs rest) (new : List Message) :
    Midway b (msgs ++ new) (rest ++ encodings new) := by
  cases midway with
  | between empty fresh =>
      rw [encodings, ← stream_append]
      exact .between empty fresh
  | inside pending something missing announced whole =>
      refine .inside pending something missing announced ?_
      rw [← List.append_assoc, ← List.append_assoc, List.append_assoc _ _ rest, whole,
        ← stream_append]
      rfl

theorem Flow.write {reader : Reader} {sent : List Message} {pipe : List UInt8}
    (flow : Flow reader sent pipe) (new : List Message) :
    Flow reader (sent ++ new) (pipe ++ encodings new) := by
  obtain ⟨ahead, rfl, midway, queue⟩ := flow
  exact ⟨ahead ++ new, List.append_assoc .., midway.more new, queue⟩

theorem Reader.step_queue {fd : Nat} {reader reader' : Reader} {chunk : List UInt8}
    (done : Reader.step fd reader chunk = .ok reader') : reader'.buffer.msgQueue = [] := by
  obtain ⟨answered, _, rest⟩ := bind_ok done
  obtain rfl := Except.ok.inj rest
  rfl

theorem Midway.takes {reader reader' : Reader} {fd : Nat} {ahead : List Message}
    {chunk pipe : List UInt8} (midway : Midway reader.buffer ahead pipe)
    (queue : reader.buffer.msgQueue = []) (something : chunk ≠ []) (next : chunk <+: pipe)
    (room : chunk.length ≤ buffSize - reader.buffer.buf.length) (resumes : Resumes reader chunk)
    (done : Reader.step fd reader chunk = .ok reader') :
    ∃ msgs ahead', ahead = msgs ++ ahead' ∧ reader'.extracted = reader.extracted ++ msgs ∧
      Midway reader'.buffer ahead' (pipe.drop chunk.length) ∧ reader'.buffer.msgQueue = [] := by
  obtain ⟨rest, rfl⟩ := next
  obtain ⟨after, msgs, ahead', stepped, split, received, midway', _⟩ :=
    midway.step fd something room resumes
  obtain rfl := Except.ok.inj (stepped.symm.trans done)
  have queue' := Reader.step_queue done
  rw [Reader.msgs, Reader.msgs, queue, queue', List.append_nil, List.append_nil] at received
  refine ⟨msgs, ahead', split, received, ?_, queue'⟩
  rwa [List.drop_left]

theorem Flow.read {reader reader' : Reader} {fd : Nat} {sent : List Message}
    {chunk pipe : List UInt8} (flow : Flow reader sent pipe) (something : chunk ≠ [])
    (next : chunk <+: pipe) (room : chunk.length ≤ buffSize - reader.buffer.buf.length)
    (resumes : Resumes reader chunk) (done : Reader.step fd reader chunk = .ok reader') :
    Flow reader' sent (pipe.drop chunk.length) := by
  obtain ⟨ahead, rfl, midway, queue⟩ := flow
  obtain ⟨msgs, ahead', rfl, received, midway', queue'⟩ :=
    midway.takes queue something next room resumes done
  exact ⟨ahead', by rw [received, List.append_assoc], midway', queue'⟩

def Reads (fd : Nat) (chunk : List UInt8) (reader reader' : Reader) : Prop :=
  if chunk = [] then reader' = reader else Reader.step fd reader chunk = .ok reader'

theorem Reads.nothing (fd : Nat) (reader : Reader) : Reads fd [] reader reader := by
  rw [Reads, if_pos rfl]

theorem Reads.chunk {fd : Nat} {chunk : List UInt8} {reader reader' : Reader}
    (something : chunk ≠ []) (stepped : Reader.step fd reader chunk = .ok reader') :
    Reads fd chunk reader reader' := by
  rwa [Reads, if_neg something]

theorem readMsg_none {fd : Int} {b b' : MsgBuffer} {err : BuffError}
    (answered : b.readMsg fd none = .ok (err, b')) : err ≠ .buffOk ∧ b' = b := by
  unfold MsgBuffer.readMsg at answered
  split_ifs at answered
  · obtain ⟨rfl, rfl⟩ := Prod.mk.inj (Except.ok.inj answered)
    exact ⟨by decide, rfl⟩
  · obtain ⟨rfl, rfl⟩ := Prod.mk.inj (Except.ok.inj answered)
    exact ⟨by decide, rfl⟩
  · obtain ⟨rfl, rfl⟩ := Prod.mk.inj (Except.ok.inj answered)
    exact ⟨by decide, rfl⟩

theorem readMsg_some {fd : Nat} {b b' : MsgBuffer} {err : BuffError} {chunk : List UInt8}
    (something : chunk ≠ []) (room : chunk.length ≤ buffSize - b.buf.length)
    (answered : b.readMsg fd (some chunk) = .ok (err, b')) (read : List Message) :
    err = .buffOk ∧ Reader.step fd ⟨b, read⟩ chunk =
      .ok ⟨{ b' with msgQueue := [] }, read ++ b'.msgQueue⟩ := by
  have opened : ¬ (fd : Int) < 0 := by omega
  have positive := List.length_pos_iff.mpr something
  have free : ¬ buffSize - b.buf.length = 0 := by omega
  have same : Reader.step fd ⟨b, read⟩ chunk =
      .ok ⟨{ b' with msgQueue := [] }, read ++ b'.msgQueue⟩ := by
    simp only [Reader.step, answered, MsgBuffer.drain, Bind.bind, Except.bind]
  refine ⟨?_, same⟩
  obtain ⟨first, rest, rfl⟩ := List.exists_cons_of_ne_nil something
  simp only [MsgBuffer.readMsg, opened, free, ↓reduceIte] at answered
  obtain ⟨gained, _, last⟩ := bind_ok answered
  exact (Prod.mk.inj (Except.ok.inj last)).1.symm

namespace BattleshipGame

variable {game game' : BattleshipGame}

theorem readMsgFromServer_reads {answer : Option (List UInt8)} (lasts : answer ≠ some [])
    (room : (answer.getD []).length ≤ buffSize - game.buf.buf.length)
    (done : game.readMsgFromServer answer = .ok game') :
    Reads game.clientFd (answer.getD []) game.reader game'.reader := by
  obtain ⟨answered, read, rest⟩ := bind_ok done
  obtain ⟨err, buf⟩ := answered
  dsimp only at rest
  cases answer with
  | none =>
      obtain ⟨failed, rfl⟩ := readMsg_none read
      rw [if_neg failed] at rest
      obtain rfl := Except.ok.inj rest
      exact .nothing _ _
  | some chunk =>
      have something : chunk ≠ [] := fun none => lasts (congrArg some none)
      obtain ⟨rfl, stepped⟩ := readMsg_some something room read game.line.read
      obtain rfl := Except.ok.inj rest
      exact .chunk something stepped

theorem processFdActions_reads {turn : Turn} (lasts : turn.readable ≠ some (some []))
    (room : ((turn.readable.getD none).getD []).length ≤ buffSize - game.buf.buf.length)
    (done : game.processFdActions turn = .ok game') :
    Reads game.clientFd ((turn.readable.getD none).getD []) game.reader game'.reader ∧
      game'.clientFd = game.clientFd := by
  obtain ⟨game₁, first, last⟩ := bind_ok done
  have reads : Reads game.clientFd ((turn.readable.getD none).getD []) game.reader game₁.reader ∧
      game₁.clientFd = game.clientFd := by
    cases answered : turn.readable with
    | none =>
        rw [answered] at first
        obtain rfl := Except.ok.inj first
        exact ⟨.nothing _ _, rfl⟩
    | some answer =>
        rw [answered] at first room lasts
        have done := mapError_ok first
        obtain ⟨buf, msgs, quit, same⟩ := readMsgFromServer_spec done
        exact ⟨readMsgFromServer_reads (fun none => lasts (congrArg some none)) room done,
          by rw [same]⟩
  obtain ⟨as, ui, asked, _, _, all⟩ :=
    processMsgs_does { game₁ with fromServer := [] } game₁.fromServer turn.clock
  dsimp only [processMsgFromServer] at last
  rw [all] at last
  cases answered : turn.writable with
  | none =>
      rw [answered] at last
      obtain rfl := Except.ok.inj last
      exact reads
  | some results =>
      rw [answered] at last
      obtain rfl := Except.ok.inj last
      have kept := (Line.writeLoop_wrote game₁.line (game₁.toServer ++ asked) results).read
      refine ⟨?_, reads.2⟩
      change Reads _ _ _ ⟨game₁.buf,
        (game₁.line.writeLoop (game₁.toServer ++ asked) results).1.read⟩
      rw [kept]
      exact reads.1

theorem turn_reads {turn : Turn} (lasts : turn.readable ≠ some (some []))
    (room : (PlayerClient.chunk turn.result turn.readable).length ≤
      buffSize - game.buf.buf.length) (done : game.turn turn = .ok game') :
    Reads game.clientFd (PlayerClient.chunk turn.result turn.readable) game.reader game'.reader ∧
      game'.clientFd = game.clientFd := by
  obtain ⟨plays, _, buf, _, fd⟩ := processKey_plays game turn.key
  have same : (game.processKey turn.key).reader = game.reader := by
    rw [reader, buf, plays.reads]
    exact congrArg (Reader.mk game.buf) (List.append_nil _)
  unfold BattleshipGame.turn processSelectResult at done
  dsimp only at done
  split_ifs at done with _ _ failed
  · obtain rfl := Except.ok.inj done
    rw [PlayerClient.chunk, if_pos failed, same]
    exact ⟨.nothing _ _, fd⟩
  · rw [PlayerClient.chunk, if_neg failed] at room ⊢
    rw [← buf] at room
    obtain ⟨reads, fd'⟩ := processFdActions_reads lasts room done
    rw [fd, same] at reads
    exact ⟨reads, fd'.trans fd⟩

end BattleshipGame

namespace ClientServer

variable {cs cs' : ClientServer}

theorem readMsgFromInterface_reads {answer : Option (List UInt8)} (lasts : answer ≠ some [])
    (room : (answer.getD []).length ≤ buffSize - cs.bufFromInterface.buf.length)
    (done : cs.readMsgFromInterface answer = .ok cs') :
    Reads cs.interfaceFd (answer.getD []) cs.reader cs'.reader := by
  obtain ⟨answered, read, rest⟩ := bind_ok done
  obtain ⟨err, buf⟩ := answered
  dsimp only at rest
  cases answer with
  | none =>
      obtain ⟨failed, rfl⟩ := readMsg_none read
      rw [if_neg failed] at rest
      obtain rfl := Except.ok.inj rest
      exact .nothing _ _
  | some chunk =>
      have something : chunk ≠ [] := fun none => lasts (congrArg some none)
      obtain ⟨rfl, stepped⟩ := readMsg_some something room read cs.line.read
      obtain rfl := Except.ok.inj rest
      exact .chunk something stepped

theorem processInterface_reads {turn : Turn} (lasts : turn.interfaceReadable ≠ some (some []))
    (room : ((turn.interfaceReadable.getD none).getD []).length ≤
      buffSize - cs.bufFromInterface.buf.length) (done : cs.processInterface turn = .ok cs') :
    Reads cs.interfaceFd ((turn.interfaceReadable.getD none).getD []) cs.reader cs'.reader ∧
      cs'.interfaceFd = cs.interfaceFd := by
  obtain ⟨cs₁, first, last⟩ := bind_ok done
  have reads : Reads cs.interfaceFd ((turn.interfaceReadable.getD none).getD []) cs.reader
      cs₁.reader ∧ cs₁.interfaceFd = cs.interfaceFd := by
    cases answered : turn.interfaceReadable with
    | none =>
        rw [answered] at first
        obtain rfl := Except.ok.inj first
        exact ⟨.nothing _ _, rfl⟩
    | some answer =>
        rw [answered] at first room lasts
        have done := mapError_ok first
        obtain ⟨buf, msgs, quit, same⟩ := readMsgFromInterface_spec done
        exact ⟨readMsgFromInterface_reads (fun none => lasts (congrArg some none)) room done,
          by rw [same]⟩
  obtain ⟨told, connected, processed, _⟩ :=
    processCmds_spec { cs₁ with fromInterface := [] } cs₁.fromInterface turn.connects
  dsimp only [processCmdFromInterface] at last
  rw [processed] at last
  cases answered : turn.interfaceWritable with
  | none =>
      rw [answered] at last
      obtain rfl := Except.ok.inj last
      exact reads
  | some results =>
      rw [answered] at last
      obtain rfl := Except.ok.inj last
      have kept := (Line.writeLoop_wrote cs₁.line (cs₁.toInterface ++ told) results).read
      refine ⟨?_, reads.2⟩
      change Reads _ _ _ ⟨cs₁.bufFromInterface,
        (cs₁.line.writeLoop (cs₁.toInterface ++ told) results).1.read⟩
      rw [kept]
      exact reads.1

theorem turn_reads (idle : cs.Idle) {turn : Turn} (lasts : turn.interfaceReadable ≠ some (some []))
    (room : (PlayerClient.chunk turn.result turn.interfaceReadable).length ≤
      buffSize - cs.bufFromInterface.buf.length) (done : cs.turn turn = .ok cs') :
    Reads cs.interfaceFd (PlayerClient.chunk turn.result turn.interfaceReadable) cs.reader
      cs'.reader := by
  unfold ClientServer.turn processSelectResult at done
  split_ifs at done with _ _ failed
  · obtain rfl := Except.ok.inj done
    rw [PlayerClient.chunk, if_pos failed]
    exact .nothing _ _
  · rw [PlayerClient.chunk, if_neg failed] at room ⊢
    obtain ⟨cs₁, first, last⟩ := bind_ok done
    obtain ⟨heard, told, events, passes, _, aside⟩ := connected_passes idle first
    rw [← aside.buf] at room
    have reads := (processInterface_reads lasts room last).1
    have same : cs₁.reader = cs.reader := by
      rw [reader, aside.buf, passes.asks, List.append_nil]
      rfl
    rw [aside.fd, same] at reads
    exact reads

end ClientServer
end Battleship
