import Battleship.Delivery
import Battleship.Stream
import Battleship.Library.Framing
import Battleship.Library.FirstOccurrence

/-! The bytes that a connection accepts from `write_msg`. A `write` takes all bytes of
a message, some of them or none; a message not written completely is put back at the
end of the queue. -/
namespace Battleship

open Runs Framing FirstOccurrence

structure Transmission where
  ref : MsgRef
  msg : Message
  accepted : Nat

abbrev Transmission.data (sent : Transmission) : List UInt8 := sent.msg.getData

namespace Outgoing

def numbered (out : Outgoing) (msg : Message) : Message :=
  if msg.id = noId then { msg with id := out.msgNum } else msg

/-- What the socket accepts in the loop of `write_msg`. -/
def transmissions (out : Outgoing) : List MsgRef → List (Int × Int) → List Transmission
  | [], _ => []
  | ref :: queue, results =>
      match out.objects ref with
      | none => []
      | some msg =>
          let result := results.headD (-1, 0)
          let size := getTypeDataSize msg.type
          if result.1 = size then
            ⟨ref, out.numbered msg, size⟩ ::
              transmissions ((out.number ref msg).written ref msg result.2) queue results.tail
          else if result.1 ≤ 0 then []
          else [⟨ref, out.numbered msg, min result.1.toNat size⟩]

/-- The messages from the one on whose writing failed; none if all were written, or if
the loop came to a deleted one. -/
def waiting (out : Outgoing) : List MsgRef → List (Int × Int) → List MsgRef
  | [], _ => []
  | ref :: queue, results =>
      match out.objects ref with
      | none => []
      | some msg =>
          let result := results.headD (-1, 0)
          if result.1 = getTypeDataSize msg.type then
            waiting ((out.number ref msg).written ref msg result.2) queue results.tail
          else ref :: queue

end Outgoing

/-- The outgoing side with all that its socket has accepted. After a deleted message
was taken from the queue nothing more is said. -/
structure Sender where
  out : Except MsgFault Outgoing
  log : List Transmission

namespace Sender

def init (resendCnt resendTime : Int) : Sender := ⟨.ok (Outgoing.init resendCnt resendTime), []⟩

def accepts (sender : Sender) (e : Outgoing.Event) : List Transmission :=
  match sender.out, e with
  | .ok out, .write results _ => out.transmissions out.toSendMsg results
  | _, _ => []

def step (sender : Sender) (e : Outgoing.Event) : Except MsgFault Sender :=
  .ok ⟨sender.out >>= fun out => out.step e, sender.log ++ sender.accepts e⟩

/-- The accepted bytes. -/
def bytes (sender : Sender) : List UInt8 :=
  written Transmission.data Transmission.accepted sender.log

/-- What a step is to leave: an accepted stream that begins a stream of whole messages,
with no half message before another one; the first transmissions in the order in which
the messages were handed to `send_msg`, that is of their numbers here; and a queue from
whose front messages were only taken. -/
structure Intact (sender : Sender) (e : Outgoing.Event) (sender' : Sender) : Prop where
  begins : ∃ msgs, sender'.bytes <+: stream Message.getData msgs
  unbroken : Unbroken Transmission.data Transmission.accepted sender'.log
  ordered : Increasing (sender'.log.map Transmission.ref)
  queue : ∀ out out' results curTime, sender.out = .ok out → sender'.out = .ok out' →
    e = .write results curTime → out.waiting out.toSendMsg results <+: out'.toSendMsg

/-- A call of `write_msg` that breaks nothing: after a half message it has no byte
accepted, and behind a message whose writing fails there are only copies of it. -/
def Careful (sender : Sender) (e : Outgoing.Event) : Prop :=
  ((∀ sent ∈ sender.log.getLast?, Whole Transmission.data Transmission.accepted sent) ∨
      sender.accepts e = []) ∧
    ∀ out results curTime, sender.out = .ok out → e = .write results curTime →
      ∀ ref rest, out.waiting out.toSendMsg results = ref :: rest → ∀ other ∈ rest, other = ref

end Sender

namespace Outgoing

/-- The messages in the order of the queue: the transmitted ones and those behind. The
one that was written in part is both transmitted and waiting. -/
theorem transmissions_waiting (out : Outgoing) (queue : List MsgRef) (results : List (Int × Int)) :
    ∃ later, (out.transmissions queue results).map Transmission.ref ++ later = queue ∧
      (out.waiting queue results = [] ∨ out.waiting queue results = later ∨
        ∃ ref, out.waiting queue results = ref :: later ∧
          ref ∈ (out.transmissions queue results).map Transmission.ref) := by
  induction queue generalizing out results with
  | nil => exact ⟨[], rfl, .inl rfl⟩
  | cons ref queue ih =>
      rw [transmissions, waiting]
      cases alive : out.objects ref with
      | none => exact ⟨ref :: queue, rfl, .inl rfl⟩
      | some msg =>
          by_cases complete : (results.headD (-1, 0)).1 = getTypeDataSize msg.type
          · obtain ⟨later, split, left⟩ := ih
              ((out.number ref msg).written ref msg (results.headD (-1, 0)).2) results.tail
            simp only [complete, ↓reduceIte, List.map_cons, List.cons_append]
            refine ⟨later, congrArg (ref :: ·) split, left.imp_right (Or.imp_right ?_)⟩
            rintro ⟨half, left, sent⟩
            exact ⟨half, left, List.mem_cons_of_mem _ sent⟩
          · simp only [complete, ↓reduceIte]
            by_cases refused : (results.headD (-1, 0)).1 ≤ 0
            · simp only [refused, ↓reduceIte]
              exact ⟨ref :: queue, rfl, .inr (.inl rfl)⟩
            · simp only [refused, ↓reduceIte]
              exact ⟨queue, rfl, .inr (.inr ⟨ref, rfl, List.mem_singleton_self ref⟩)⟩

def putBack : List MsgRef → List MsgRef
  | [] => []
  | ref :: queue => queue ++ [ref]

theorem written_control {out : Outgoing} {ref : MsgRef} {msg : Message} {now : Int}
    {item : ListItem} (member : item ∈ (out.written ref msg now).control) :
    (∃ old ∈ out.control, old.msg = item.msg) ∨ item.msg = ref := by
  unfold written at member
  split_ifs at member with receipt free
  · exact .inl ⟨item, member, rfl⟩
  · rcases List.mem_cons.mp member with rfl | old
    · exact .inr rfl
    · exact .inl ⟨item, old, rfl⟩
  · have inside := List.mem_map_of_mem (f := ListItem.msg) member
    rw [decrease_msgs] at inside
    obtain ⟨old, member, same⟩ := List.mem_map.mp inside
    exact .inl ⟨old, member, same⟩

@[simp] theorem written_nextRef (out : Outgoing) (ref : MsgRef) (msg : Message) (now : Int) :
    (out.written ref msg now).nextRef = out.nextRef := by
  unfold written
  split_ifs <;> rfl

theorem writeLoop_spec {out out' : Outgoing} {queue : List MsgRef} {results : List (Int × Int)}
    (done : out.writeLoop queue results = .ok out') :
    out'.nextRef = out.nextRef ∧ out'.toSendMsg = putBack (out.waiting queue results) ∧
      ∀ item ∈ out'.control, (∃ old ∈ out.control, old.msg = item.msg) ∨
        item.msg ∈ (out.transmissions queue results).map Transmission.ref := by
  -- What is under control afterwards was so before, or was written in the loop.
  induction queue generalizing out results with
  | nil =>
      cases done
      exact ⟨rfl, rfl, fun item member => .inl ⟨item, member, rfl⟩⟩
  | cons ref queue ih =>
      rw [writeLoop] at done
      rw [transmissions, waiting]
      cases alive : out.objects ref with
      | none =>
          rw [alive] at done
          cases done
      | some msg =>
          rw [alive] at done
          by_cases complete : (results.headD (-1, 0)).1 = getTypeDataSize msg.type
          · simp only [complete, ↓reduceIte] at done ⊢
            obtain ⟨nextRef, left, control⟩ := ih done
            refine ⟨by simpa using nextRef, left, fun item member => ?_⟩
            rw [List.map_cons]
            rcases control item member with ⟨old, inside, same⟩ | sent
            · rcases written_control inside with ⟨older, inside, same'⟩ | new
              · rw [number_control] at inside
                exact .inl ⟨older, inside, same'.trans same⟩
              · exact .inr (by rw [← same, new]; exact List.mem_cons_self)
            · exact .inr (List.mem_cons_of_mem _ sent)
          · simp only [complete, ↓reduceIte] at done ⊢
            cases done
            refine ⟨number_nextRef _ _ _, rfl, fun item member => .inl ⟨item, ?_, rfl⟩⟩
            simpa using member

theorem writeMsg_spec {out out' : Outgoing} {results : List (Int × Int)} {curTime : Int}
    (done : out.writeMsg results curTime = .ok out') :
    out'.nextRef = out.nextRef ∧
      (∃ resent, out'.toSendMsg = putBack (out.waiting out.toSendMsg results) ++ resent ∧
        ∀ ref ∈ resent, (∃ old ∈ out.control, old.msg = ref) ∨
          ref ∈ (out.transmissions out.toSendMsg results).map Transmission.ref) ∧
      ∀ item ∈ out'.control, (∃ old ∈ out.control, old.msg = item.msg) ∨
        item.msg ∈ (out.transmissions out.toSendMsg results).map Transmission.ref := by
  obtain ⟨out₁, looped, rest⟩ := bind_ok done
  obtain rfl := Except.ok.inj rest
  obtain ⟨nextRef, left, control⟩ := writeLoop_spec looped
  obtain ⟨queue, next, members, -, -⟩ := rmAllExhausted_spec { out₁ with
    toSendMsg := out₁.toSendMsg ++
      (out₁.control.filter fun item => out₁.needResend item curTime).map ListItem.msg }
    out₁.control
  refine ⟨next.trans nextRef, ⟨_, by rw [← left]; exact queue, fun ref inside => ?_⟩,
    fun item member => control item ((members item).mp member).1⟩
  obtain ⟨item, member, rfl⟩ := List.mem_map.mp inside
  exact control item (List.mem_filter.mp member).1

theorem processCheck_spec {out out' : Outgoing} {reqMsgId : Int64}
    (done : out.processCheck reqMsgId = .ok out') :
    out'.nextRef = out.nextRef ∧ out'.toSendMsg = out.toSendMsg ∧
      ∀ item ∈ out'.control, item ∈ out.control := by
  obtain ⟨found, _, rest⟩ := bind_ok done
  cases found with
  | none =>
      obtain rfl := Except.ok.inj rest
      exact ⟨rfl, rfl, fun _ member => member⟩
  | some item =>
      obtain rfl := Except.ok.inj rest
      exact ⟨rfl, rfl, fun _ member => (List.mem_filter.mp member).1⟩

theorem waiting_of_fault {out : Outgoing} {queue : List MsgRef} {results : List (Int × Int)}
    {fault : MsgFault} (stopped : out.writeLoop queue results = .error fault) :
    out.waiting queue results = [] := by
  induction queue generalizing out results with
  | nil => cases stopped
  | cons ref queue ih =>
      rw [writeLoop] at stopped
      rw [waiting]
      cases alive : out.objects ref with
      | none => rfl
      | some msg =>
          rw [alive] at stopped
          by_cases complete : (results.headD (-1, 0)).1 = getTypeDataSize msg.type
          · simp only [complete, ↓reduceIte] at stopped ⊢
            exact ih stopped
          · simp only [complete, ↓reduceIte] at stopped
            cases stopped

theorem writeMsg_fault {out : Outgoing} {results : List (Int × Int)} {curTime : Int}
    {fault : MsgFault} (stopped : out.writeMsg results curTime = .error fault) :
    out.writeLoop out.toSendMsg results = .error fault := by
  unfold writeMsg at stopped
  cases looped : out.writeLoop out.toSendMsg results with
  | error fault' => rfl
  | ok out' =>
      rw [looped] at stopped
      cases stopped

theorem putBack_length (queue : List MsgRef) : (putBack queue).length = queue.length := by
  cases queue <;> simp [putBack]

theorem putBack_eq_iff {queue resent : List MsgRef} :
    queue <+: putBack queue ++ resent ↔ putBack queue = queue := by
  constructor
  · intro start
    have inside := List.prefix_of_prefix_length_le start (List.prefix_append _ resent)
      (putBack_length queue).ge
    exact (inside.eq_of_length (putBack_length queue).symm).symm
  · intro same
    rw [same]
    exact List.prefix_append _ _

end Outgoing

namespace Sender

def refs (sender : Sender) : List MsgRef := sender.log.map Transmission.ref

/-- What was transmitted and what is queued, one behind the other, are in the order of
`send_msg`; delivery control holds only messages that were transmitted. -/
structure Lined (refs : List MsgRef) (out : Outgoing) : Prop where
  increasing : Increasing (refs ++ out.toSendMsg)
  below : ∀ ref ∈ refs ++ out.toSendMsg, ref < out.nextRef
  controlled : ∀ item ∈ out.control, item.msg ∈ refs

structure Inv (sender : Sender) : Prop where
  unbroken : Unbroken Transmission.data Transmission.accepted sender.log
  ordered : Increasing sender.refs
  lined : ∀ out, sender.out = .ok out → Lined sender.refs out

theorem init_inv (resendCnt resendTime : Int) : (init resendCnt resendTime).Inv := by
  refine ⟨nofun, increasing_nil, fun out same => ?_⟩
  cases same
  exact ⟨increasing_nil, nofun, nofun⟩

namespace Lined

variable {refs : List MsgRef} {out out' : Outgoing}

theorem sendMsg (lined : Lined refs out) (msg : Message) : Lined refs (out.sendMsg msg) := by
  have queue : (out.sendMsg msg).toSendMsg = out.toSendMsg ++ [out.nextRef] := rfl
  constructor
  · rw [queue, ← List.append_assoc]
    exact increasing_snoc.mpr ⟨lined.increasing, .inr lined.below⟩
  · intro ref member
    rw [queue, ← List.append_assoc] at member
    rcases List.mem_append.mp member with before | last
    · exact Nat.lt_succ_of_lt (lined.below ref before)
    · obtain rfl := List.mem_singleton.mp last
      exact Nat.lt_succ_self _
  · exact lined.controlled

/-- With the queue in its order the half message stays in front, and what is resent
behind it was transmitted before. -/
theorem writeMsg {results : List (Int × Int)} {curTime : Int} (lined : Lined refs out)
    (wrote : out.writeMsg results curTime = .ok out')
    (kept : out.waiting out.toSendMsg results <+: out'.toSendMsg) :
    Lined (refs ++ (out.transmissions out.toSendMsg results).map Transmission.ref) out' := by
  obtain ⟨nextRef, ⟨resent, queue, again⟩, control⟩ := Outgoing.writeMsg_spec wrote
  obtain ⟨later, split, left⟩ := out.transmissions_waiting out.toSendMsg results
  rw [queue] at kept
  rw [Outgoing.putBack_eq_iff.mp kept] at queue
  generalize (out.transmissions out.toSendMsg results).map Transmission.ref = sent at *
  generalize out.waiting out.toSendMsg results = waiting at *
  have known {ref : MsgRef} (held : (∃ old ∈ out.control, old.msg = ref) ∨ ref ∈ sent) :
      ref ∈ refs ++ sent := by
    rcases held with ⟨old, member, rfl⟩ | inside
    · exact List.mem_append_left _ (lined.controlled old member)
    · exact List.mem_append_right _ inside
  have start : Increasing ((refs ++ sent) ++ later) := by
    rw [List.append_assoc, split]
    exact lined.increasing
  have still : Increasing ((refs ++ sent) ++ waiting) ∧ ∀ ref ∈ waiting, ref ∈ sent ++ later := by
    rcases left with rfl | rfl | ⟨half, rfl, inside⟩
    · exact ⟨by simpa using start.of_append, nofun⟩
    · exact ⟨start, fun ref member => List.mem_append_right _ member⟩
    · refine ⟨start.repeat_between (List.mem_append_right _ inside), fun ref member => ?_⟩
      rcases List.mem_cons.mp member with rfl | behind
      · exact List.mem_append_left _ inside
      · exact List.mem_append_right _ behind
  constructor
  · rw [queue, ← List.append_assoc]
    exact still.1.repeat_end fun ref member => List.mem_append_left _ (known (again ref member))
  · intro ref member
    rw [nextRef]
    apply lined.below
    rw [← split, ← List.append_assoc]
    rw [queue] at member
    rcases List.mem_append.mp member with before | member
    · exact List.mem_append_left _ before
    rcases List.mem_append.mp member with waits | member
    · rw [List.append_assoc]
      exact List.mem_append_right _ (still.2 ref waits)
    · exact List.mem_append_left _ (known (again ref member))
  · exact fun item member => known (control item member)

theorem processCheck {reqMsgId : Int64} (lined : Lined refs out)
    (done : out.processCheck reqMsgId = .ok out') : Lined refs out' := by
  obtain ⟨nextRef, queue, control⟩ := Outgoing.processCheck_spec done
  constructor
  · rw [queue]
    exact lined.increasing
  · rw [queue, nextRef]
    exact lined.below
  · exact fun item member => lined.controlled item (control item member)

end Lined

/-- Across a step that leaves the stream intact nothing gets out of line. -/
theorem Inv.step {sender sender' : Sender} {e : Outgoing.Event} (inv : sender.Inv)
    (done : Sender.step sender e = .ok sender') (intact : Intact sender e sender') :
    sender'.Inv := by
  refine ⟨intact.unbroken, intact.ordered, fun out' alive' => ?_⟩
  have kept := intact.queue
  obtain rfl := Except.ok.inj done
  obtain ⟨out, alive, next⟩ := bind_ok alive'
  have lined := inv.lined out alive
  have logged : Sender.refs ⟨sender.out >>= fun out => out.step e, sender.log ++ sender.accepts e⟩ =
      sender.refs ++ (sender.accepts e).map Transmission.ref := List.map_append
  rw [logged]
  cases e with
  | write results curTime =>
      have accepted : sender.accepts (.write results curTime) =
          out.transmissions out.toSendMsg results := by
        simp only [accepts, alive]
      rw [accepted]
      exact lined.writeMsg next (kept out out' results curTime alive alive' rfl)
  | send msg =>
      have accepted : sender.accepts (.send msg) = [] := by simp [accepts]
      rw [accepted, List.map_nil, List.append_nil]
      obtain rfl := Except.ok.inj next
      exact lined.sendMsg msg
  | receipt reqMsgId =>
      have accepted : sender.accepts (.receipt reqMsgId) = [] := by simp [accepts]
      rw [accepted, List.map_nil, List.append_nil]
      exact lined.processCheck next
  | others taken =>
      have accepted : sender.accepts (.others taken) = [] := by simp [accepts]
      rw [accepted, List.map_nil, List.append_nil]
      obtain rfl := Except.ok.inj next
      exact ⟨lined.increasing, lined.below, lined.controlled⟩

end Sender
end Battleship
