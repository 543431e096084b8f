import Battleship.Message
import Battleship.Library.Runs
import Mathlib.Logic.Function.Basic

/-! The outgoing messages of a `ClientData` or a `ClientServer`: the queue of the
messages to send and the delivery control of core/msg_delivery_control.cpp, which
share their message objects. `write_msg` and `_write_msg_to_server` are the same
loop; with no connection neither does anything.

A message object is known by a number that is never given out twice; following a
pointer to a deleted one is a fault. -/
namespace Battleship

open Runs

abbrev MsgRef := Nat

inductive MsgFault where
  | deletedMsg
  deriving DecidableEq, Repr

structure ListItem where
  msg : MsgRef
  lastSendTime : Int
  resendCnt : Int

structure Outgoing where
  toSendMsg : List MsgRef
  /-- The items of the delivery control, from `last` on. -/
  control : List ListItem
  resendCnt : Int
  resendTime : Int
  objects : MsgRef → Option Message
  nextRef : MsgRef
  /-- The counter of `get_msg_num`, which all clients share. -/
  msgNum : Int64

namespace Outgoing

def init (resendCnt resendTime : Int) : Outgoing where
  toSendMsg := []
  control := []
  resendCnt := resendCnt
  resendTime := resendTime
  objects := fun _ => none
  nextRef := 0
  msgNum := startRegNum

def delete (out : Outgoing) (ref : MsgRef) : Outgoing :=
  { out with objects := Function.update out.objects ref none }

/-! ### Delivery control -/

def underControl (out : Outgoing) (ref : MsgRef) : Bool :=
  out.control.any fun item => item.msg = ref

def add (out : Outgoing) (ref : MsgRef) (now : Int) : Outgoing :=
  { out with control := ⟨ref, now, out.resendCnt⟩ :: out.control }

def decrease (out : Outgoing) (ref : MsgRef) (now : Int) : Outgoing :=
  { out with control := out.control.map fun item =>
      if item.msg = ref then ⟨ref, now, item.resendCnt - 1⟩ else item }

def find (out : Outgoing) (id : Int64) : List ListItem → Except MsgFault (Option ListItem)
  | [] => .ok none
  | item :: chain =>
      match out.objects item.msg with
      | none => .error .deletedMsg
      | some msg => if msg.id = id then .ok (some item) else find out id chain

/-- `_remove_msg` deletes the message and unlinks its item; no other item holds it. -/
def removeMsg (out : Outgoing) (item : ListItem) : Outgoing :=
  { out.delete item.msg with control := out.control.filter fun other => other.msg ≠ item.msg }

def needResend (out : Outgoing) (item : ListItem) (curTime : Int) : Bool :=
  decide (0 < item.resendCnt ∧ out.resendTime < curTime - item.lastSendTime)

/-- The loop of `_rm_all_exhausted`. It goes on from an item it has just deleted: the
link of such an item is taken to be the one it had. -/
def rmAllExhausted (out : Outgoing) : List ListItem → Outgoing
  | [] => out
  | item :: chain =>
      rmAllExhausted (if item.resendCnt ≤ 0 then out.removeMsg item else out) chain

def resend (out : Outgoing) (curTime : Int) : Outgoing :=
  let resent := (out.control.filter fun item => out.needResend item curTime).map ListItem.msg
  rmAllExhausted { out with toSendMsg := out.toSendMsg ++ resent } out.control

def processCheck (out : Outgoing) (reqMsgId : Int64) : Except MsgFault Outgoing := do
  match ← out.find reqMsgId out.control with
  | none => .ok out
  | some item => .ok (out.removeMsg item)

/-! ### Sending -/

/-- `send_msg(new ..)`; also `_redirect_to_server`, of a message read elsewhere. -/
def sendMsg (out : Outgoing) (msg : Message) : Outgoing :=
  { out with
    objects := Function.update out.objects out.nextRef (some msg)
    toSendMsg := out.toSendMsg ++ [out.nextRef]
    nextRef := out.nextRef + 1 }

def number (out : Outgoing) (ref : MsgRef) (msg : Message) : Outgoing :=
  if msg.id = noId then
    { out with
      objects := Function.update out.objects ref (some { msg with id := out.msgNum })
      msgNum := out.msgNum + 1 }
  else out

def written (out : Outgoing) (ref : MsgRef) (msg : Message) (now : Int) : Outgoing :=
  if msg.type = .receipt then out.delete ref
  else if !out.underControl ref then out.add ref now
  else out.decrease ref now

/-- The loop of `write_msg` over the queue. Each message has what `write` returns and
`time(0)` then; a message without is not written. The check for an invalid type is
left out, as all fourteen classes have a valid one. -/
def writeLoop (out : Outgoing) : List MsgRef → List (Int × Int) → Except MsgFault Outgoing
  | [], _ => .ok { out with toSendMsg := [] }
  | ref :: queue, results =>
      match out.objects ref with
      | none => .error .deletedMsg
      | some msg =>
          let out := out.number ref msg
          let result := results.headD (-1, 0)
          if result.1 = getTypeDataSize msg.type then
            writeLoop (out.written ref msg result.2) queue results.tail
          -- A failed or a short write: the message goes to the end of the queue.
          else .ok { out with toSendMsg := queue ++ [ref] }

def writeMsg (out : Outgoing) (results : List (Int × Int)) (curTime : Int) :
    Except MsgFault Outgoing := do
  let out ← out.writeLoop out.toSendMsg results
  .ok (out.resend curTime)

/-- What can happen to the outgoing messages. `others` stands for the other clients,
who take numbers from the same counter. -/
inductive Event where
  | send (msg : Message)
  | write (results : List (Int × Int)) (curTime : Int)
  | receipt (reqMsgId : Int64)
  | others (taken : Nat)

def step (out : Outgoing) : Event → Except MsgFault Outgoing
  | .send msg => .ok (out.sendMsg msg)
  | .write results curTime => out.writeMsg results curTime
  | .receipt reqMsgId => out.processCheck reqMsgId
  | .others taken => .ok { out with msgNum := out.msgNum + Int64.ofNat taken }

abbrev run : Outgoing → List Event → Except MsgFault Outgoing := Runs.run step

/-! ### What the operations do -/

@[simp] theorem delete_toSendMsg (out : Outgoing) (ref : MsgRef) :
    (out.delete ref).toSendMsg = out.toSendMsg := rfl
@[simp] theorem delete_control (out : Outgoing) (ref : MsgRef) :
    (out.delete ref).control = out.control := rfl
@[simp] theorem delete_nextRef (out : Outgoing) (ref : MsgRef) :
    (out.delete ref).nextRef = out.nextRef := rfl

@[simp] theorem number_control (out : Outgoing) (ref : MsgRef) (msg : Message) :
    (out.number ref msg).control = out.control := by
  unfold number
  split_ifs <;> rfl

@[simp] theorem number_nextRef (out : Outgoing) (ref : MsgRef) (msg : Message) :
    (out.number ref msg).nextRef = out.nextRef := by
  unfold number
  split_ifs <;> rfl

@[simp] theorem number_resendCnt (out : Outgoing) (ref : MsgRef) (msg : Message) :
    (out.number ref msg).resendCnt = out.resendCnt := by
  unfold number
  split_ifs <;> rfl

/-- The type of a message object, if it is alive. -/
def type (out : Outgoing) (ref : MsgRef) : Option MsgType := (out.objects ref).map Message.type

@[simp] theorem number_type (out : Outgoing) {ref : MsgRef} {msg : Message}
    (alive : out.objects ref = some msg) : (out.number ref msg).type = out.type := by
  funext other
  unfold number
  split_ifs
  · by_cases same : other = ref <;> simp [type, same, alive, Message.type]
  · rfl

theorem delete_type (out : Outgoing) (ref other : MsgRef) :
    (out.delete ref).type other = if other = ref then none else out.type other := by
  by_cases same : other = ref <;> simp [type, delete, same]

theorem underControl_iff {out : Outgoing} {ref : MsgRef} :
    out.underControl ref = true ↔ ∃ item ∈ out.control, item.msg = ref := by
  simp [underControl]

end Outgoing
end Battleship
