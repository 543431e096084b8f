import Battleship.Receipts
import Battleship.Numbering

/-! The messages of all clients on their way: the server with the queue and the delivery
control of each client and with the counter of `get_msg_num`, which all clients share. -/
namespace Battleship

open Runs

def defaultResendCnt : Int := 3
def defaultResendTime : Int := 10

/-- With a client the messages in its queue are deleted, those that are only under control are
not. The entry of a deleted client stays as it was, and nothing reads it any more. -/
structure Mail where
  srv : Server
  out : ClientId → Outgoing
  msgNum : Int64

namespace Mail

/-- An event of the server, or a call of `write_msg` for a client. -/
inductive Event where
  | server (e : Server.Event)
  | write (client : ClientId) (results : List (Int × Int)) (curTime : Int)

def init : Mail :=
  ⟨Server.init, fun _ => Outgoing.init defaultResendCnt defaultResendTime, startRegNum⟩

/-- The messages of a client, with the counter as it stands: the one in `out` is not read. -/
def outgoing (mail : Mail) (c : ClientId) : Outgoing := { mail.out c with msgNum := mail.msgNum }

def setOutgoing (mail : Mail) (c : ClientId) (out : Outgoing) : Mail :=
  { mail with
    out := Function.update mail.out c { out with msgNum := (mail.out c).msgNum }
    msgNum := out.msgNum }

/-- What the server has queued for its clients goes into their `to_send_msg`. -/
def handOver (mail : Mail) (srv : Server) : Mail :=
  { mail with
    srv := srv
    out := fun c =>
      match srv.clients c with
      | none => mail.out c
      | some _ => ((srv.toSendMsg c).drop (mail.srv.toSendMsg c).length).foldl Outgoing.sendMsg
          (mail.out c) }

def processReceiptMsg (mail : Mail) (c : ClientId) (reqMsgId : Int64) : Except MsgFault Mail := do
  let out ← (mail.outgoing c).processCheck reqMsgId
  .ok (mail.setOutgoing c out)

def writeMsg (mail : Mail) (c : ClientId) (results : List (Int × Int)) (curTime : Int) :
    Except MsgFault Mail := do
  let out ← (mail.outgoing c).writeMsg results curTime
  .ok (mail.setOutgoing c out)

def step (mail : Mail) : Event → Except (Fault ⊕ MsgFault) Mail
  | .server e => do
      let srv ← (mail.srv.step e).mapError .inl
      match e with
      | .message c ⟨_, .receipt reqMsgId⟩ _ =>
          ((mail.handOver srv).processReceiptMsg c reqMsgId).mapError .inr
      | _ => .ok (mail.handOver srv)
  | .write c results curTime =>
      if (mail.srv.clients c).isSome then (mail.writeMsg c results curTime).mapError .inr
      else .error (.inl .notEnabled)

abbrev run : Mail → List Event → Except (Fault ⊕ MsgFault) Mail := Runs.run step

def sent (mail : Mail) : Nat :=
  ∑ c ∈ Finset.range mail.srv.nextClient, (mail.out c).nextRef

end Mail

namespace Server

def Made (msg : Message) : Prop := msg = Message.new msg.body

theorem made_new (body : Body) : Made (Message.new body) := by
  rw [Made, Message.new_body]

theorem processGameFieldMsg_queues {srv : Server} (c : ClientId) (id : Int64) (field : GameField) :
    Sends Made srv (srv.processGameFieldMsg c id field) := by
  unfold processGameFieldMsg
  split
  · exact sendMsg_queues c (made_new _)
  · split
    · exact sendMsg_queues c (made_new _)
    · split
      · exact Sends.after (setSession_queues _ _) (sendMsg_queues c (made_new _))
      · exact sendMsg_queues c (made_new _)

theorem processMsg_queues {srv : Server} (c : ClientId) (msg : Message) (now : Int64) :
    Sends Made srv (srv.processMsg c msg now) := by
  have new (body : Body) (_ : body.type ≠ .receipt) : Made (Message.new body) := made_new body
  have acknowledges (srv₁ : Server) : Sends Made srv₁ (if msg.type ≠ .receipt then
      srv₁.sendMsg c (Message.new (.receipt msg.id)) else .ok srv₁) := by
    split_ifs
    · exact sendMsg_queues c (made_new _)
    · exact Queues.refl srv₁
  unfold processMsg
  dsimp only
  split
  · exact (processGameSessionReqMsg_queues new c now).bind acknowledges
  · exact (processGameFieldMsg_queues c _ _).bind acknowledges
  · exact (processGameMoveMsg_queues new c _).bind acknowledges
  · exact acknowledges srv

theorem step_appends {srv srv' : Server} {e : Event} (done : srv.step e = .ok srv')
    {c : ClientId} (alive : srv'.clients c ≠ none) :
    ∃ msgs, srv'.toSendMsg c = srv.toSendMsg c ++ msgs ∧ ∀ msg ∈ msgs, Made msg := by
  have new (body : Body) (_ : body.type ≠ .receipt) : Made (Message.new body) := made_new body
  have queued {x : Except Fault Server} (sends : Sends Made srv x) (done : x = .ok srv') :
      ∃ msgs, srv'.toSendMsg c = srv.toSendMsg c ++ msgs ∧ ∀ msg ∈ msgs, Made msg :=
    (sends.elim done).queued c alive
  cases e with
  | accept =>
      obtain rfl : srv.acceptNewConnection = srv' := Except.ok.inj done
      refine ⟨[], ?_, nofun⟩
      rw [List.append_nil]
      unfold acceptNewConnection
      split <;> rfl
  | message c' msg now =>
      by_cases present : (srv.clients c').isSome
      · simp only [step, present, ↓reduceIte] at done
        exact queued (processMsg_queues c' msg now) done
      · simp [step, present] at done
  | broken c' =>
      by_cases present : (srv.clients c').isSome
      · simp only [step, present, ↓reduceIte] at done
        exact queued (connBroken_queues new c') done
      · simp [step, present] at done
  | timer id sec usec now draws =>
      cases found : srv.timeoutHandlers.find? fun h => h.id = id with
      | none => simp [step, found] at done
      | some h =>
          simp only [step, found] at done
          exact queued (processTimeout_queues new h sec usec now draws) done

theorem step_nextClient {srv srv' : Server} (sound : srv.Sound) {e : Event}
    (done : srv.step e = .ok srv') : srv.nextClient ≤ srv'.nextClient := by
  cases next : srv.nextClient with
  | zero => exact Nat.zero_le _
  | succ last => exact (step_known sound done (next ▸ Nat.lt_succ_self last)).1

end Server

namespace Outgoing

theorem Registered.sendAll {taken : Nat} {msgs : List Message}
    (made : ∀ msg ∈ msgs, Server.Made msg) {out : Outgoing} (registered : out.Registered taken) :
    (msgs.foldl Outgoing.sendMsg out).Registered taken ∧
      Takes taken taken out (msgs.foldl Outgoing.sendMsg out) := by
  induction msgs generalizing out with
  | nil => exact ⟨registered, .refl taken out⟩
  | cons msg msgs ih =>
      obtain ⟨first, rest⟩ := List.forall_mem_cons.mp made
      obtain ⟨registered₁, takes₁⟩ := registered.sendMsg msg.body
      rw [← first] at registered₁ takes₁
      obtain ⟨registered', takes'⟩ := ih rest registered₁
      exact ⟨registered', takes₁.trans takes'⟩

theorem sendAll_nextRef (msgs : List Message) (out : Outgoing) :
    out.nextRef ≤ (msgs.foldl Outgoing.sendMsg out).nextRef := by
  induction msgs generalizing out with
  | nil => exact le_refl _
  | cons msg msgs ih => exact (Nat.le_succ _).trans (ih (out.sendMsg msg))

theorem sendAll_msgNum (msgs : List Message) (out : Outgoing) (msgNum : Int64) :
    { msgs.foldl Outgoing.sendMsg out with msgNum := msgNum } =
      msgs.foldl Outgoing.sendMsg { out with msgNum := msgNum } := by
  induction msgs generalizing out with
  | nil => rfl
  | cons msg msgs ih => exact ih (out.sendMsg msg)

end Outgoing

namespace Mail

/-- `taken` numbers were given out, each to one message of one client. -/
structure Counted (mail : Mail) (taken : Nat) : Prop where
  registered : ∀ c, (mail.outgoing c).Registered taken
  bound : taken ≤ ∑ c ∈ Finset.range mail.srv.nextClient, (mail.out c).spent
  unique : ∀ c c' ref ref' id, (mail.out c).Numbered ref id → (mail.out c').Numbered ref' id →
    c = c'

structure Inv (mail : Mail) : Prop where
  server : mail.srv.Inv
  counted : mail.sent < 2 ^ 63 → ∃ taken, mail.Counted taken

section Steps

variable {mail mail' : Mail} {taken taken' : Nat}

theorem outgoing_setOutgoing (mail : Mail) (c : ClientId) (out : Outgoing) :
    (mail.setOutgoing c out).outgoing c = out := by
  simp [outgoing, setOutgoing]

theorem sum_setOutgoing (mail : Mail) {c : ClientId} (known : c < mail.srv.nextClient)
    (out : Outgoing) (size : Outgoing → Nat)
    (blind : ∀ msgNum, size { out with msgNum := msgNum } = size out) :
    (∑ d ∈ Finset.range mail.srv.nextClient, size ((mail.setOutgoing c out).out d)) +
        size (mail.out c) =
      (∑ d ∈ Finset.range mail.srv.nextClient, size (mail.out d)) + size out := by
  have member : c ∈ Finset.range mail.srv.nextClient := Finset.mem_range.mpr known
  rw [← Finset.add_sum_erase _ _ member, ← Finset.add_sum_erase _ (fun d => size (mail.out d)) member]
  have others : (∑ d ∈ (Finset.range mail.srv.nextClient).erase c,
      size ((mail.setOutgoing c out).out d)) =
      ∑ d ∈ (Finset.range mail.srv.nextClient).erase c, size (mail.out d) := by
    refine Finset.sum_congr rfl fun d inside => ?_
    exact congrArg size (Function.update_of_ne (Finset.ne_of_mem_erase inside) _ _)
  have here : (mail.setOutgoing c out).out c = { out with msgNum := (mail.out c).msgNum } :=
    Function.update_self ..
  rw [others, here, blind]
  ring

theorem Counted.set (counted : mail.Counted taken) {c : ClientId}
    (known : c < mail.srv.nextClient) {out : Outgoing} (registered : out.Registered taken')
    (takes : Outgoing.Takes taken taken' (mail.outgoing c) out) :
    (mail.setOutgoing c out).Counted taken' := by
  have elsewhere {d : ClientId} (other : d ≠ c) : (mail.setOutgoing c out).out d = mail.out d :=
    Function.update_of_ne other _ _
  -- a number was there before, or the client has just taken it
  have source {d : ClientId} {ref : MsgRef} {id : Int64}
      (numbered : ((mail.setOutgoing c out).out d).Numbered ref id) :
      (mail.out d).Numbered ref id ∨ d = c ∧ (taken : Int) < id.toInt := by
    by_cases same : d = c
    · subst same
      have here : (mail.setOutgoing d out).out d = { out with msgNum := (mail.out d).msgNum } :=
        Function.update_self ..
      rw [here] at numbered
      exact (takes.old ref id numbered).imp (fun old => old) fun late => ⟨rfl, late⟩
    · rw [elsewhere same] at numbered
      exact Or.inl numbered
  have taken_old {d : ClientId} {ref : MsgRef} {id : Int64} (numbered : (mail.out d).Numbered ref id) :
      id.toInt ≤ taken := ((counted.registered d).range ref id numbered).2
  constructor
  · intro d
    by_cases same : d = c
    · subst same
      rw [outgoing_setOutgoing]
      exact registered
    · have before := counted.registered d
      have view : (mail.setOutgoing c out).outgoing d = { mail.out d with msgNum := out.msgNum } := by
        rw [outgoing, elsewhere same]
        rfl
      rw [view]
      refine ⟨registered.counter, registered.small, before.owned, before.apart, before.known,
        fun ref id numbered => ?_, before.single⟩
      obtain ⟨positive, below⟩ := before.range ref id numbered
      have more := takes.more
      exact ⟨positive, by omega⟩
  · have sums := sum_setOutgoing mail known out Outgoing.spent fun _ => rfl
    have more := takes.spent
    have bound := counted.bound
    change taken' ≤ ∑ d ∈ Finset.range mail.srv.nextClient, ((mail.setOutgoing c out).out d).spent
    change taken' + (mail.out c).spent ≤ taken + out.spent at more
    omega
  · intro d d' ref ref' id left right
    rcases source left with old | ⟨rfl, late⟩ <;> rcases source right with old' | ⟨rfl, late'⟩
    · exact counted.unique d d' ref ref' id old old'
    · have := taken_old old
      omega
    · have := taken_old old'
      omega
    · rfl

theorem sum_grows {f g : ClientId → Nat} (le : ∀ c, f c ≤ g c) {m n : Nat} (more : m ≤ n) :
    ∑ c ∈ Finset.range m, f c ≤ ∑ c ∈ Finset.range n, g c :=
  (Finset.sum_le_sum fun c _ => le c).trans
    (Finset.sum_le_sum_of_subset (Finset.range_mono more))

theorem spent_le_sent (mail : Mail) :
    ∑ c ∈ Finset.range mail.srv.nextClient, (mail.out c).spent ≤ mail.sent :=
  Finset.sum_le_sum fun c _ => (mail.out c).spent_le

theorem handOver_nextRef (mail : Mail) (srv : Server) (c : ClientId) :
    (mail.out c).nextRef ≤ ((mail.handOver srv).out c).nextRef := by
  unfold handOver
  dsimp only
  split
  · exact le_refl _
  · exact Outgoing.sendAll_nextRef _ _

theorem Counted.handOver (counted : mail.Counted taken) {srv : Server} {e : Server.Event}
    (sound : mail.srv.Sound) (done : mail.srv.step e = .ok srv) :
    (mail.handOver srv).Counted taken := by
  have client (c : ClientId) : ((mail.handOver srv).outgoing c).Registered taken ∧
      Outgoing.Takes taken taken (mail.outgoing c) ((mail.handOver srv).outgoing c) := by
    cases alive : srv.clients c with
    | none =>
        have same : (mail.handOver srv).outgoing c = mail.outgoing c := by
          simp [outgoing, Mail.handOver, alive]
        rw [same]
        exact ⟨counted.registered c, .refl taken _⟩
    | some client =>
        obtain ⟨msgs, append, made⟩ := Server.step_appends done (c := c) (by simp [alive])
        have all : (mail.handOver srv).outgoing c =
            msgs.foldl Outgoing.sendMsg (mail.outgoing c) := by
          simp only [outgoing, Mail.handOver, alive, append, List.drop_left]
          exact Outgoing.sendAll_msgNum msgs (mail.out c) mail.msgNum
        rw [all]
        exact (counted.registered c).sendAll made
  have old {c : ClientId} {ref : MsgRef} {id : Int64}
      (numbered : ((mail.handOver srv).out c).Numbered ref id) : (mail.out c).Numbered ref id := by
    -- A number above `taken` would be out of the range that is kept.
    rcases (client c).2.old ref id numbered with old | late
    · exact old
    · have := ((client c).1.range ref id numbered).2
      omega
  refine ⟨fun c => (client c).1, counted.bound.trans (sum_grows (fun c => ?_) ?_), ?_⟩
  · have more := (client c).2.spent
    change taken + (mail.out c).spent ≤ taken + ((mail.handOver srv).out c).spent at more
    omega
  · exact Server.step_nextClient sound done
  · exact fun c c' ref ref' id left right => counted.unique c c' ref ref' id (old left) (old right)

theorem Inv.handOver (inv : mail.Inv) {srv : Server} {e : Server.Event}
    (done : mail.srv.step e = .ok srv) : (mail.handOver srv).Inv := by
  refine ⟨Server.step_inv inv.server done, fun few => ?_⟩
  have more : mail.sent ≤ (mail.handOver srv).sent :=
    sum_grows (handOver_nextRef mail srv) (Server.step_nextClient inv.server.sound done)
  obtain ⟨taken, counted⟩ := inv.counted (lt_of_le_of_lt more few)
  exact ⟨taken, counted.handOver inv.server.sound done⟩

theorem Inv.set (inv : mail.Inv) {c : ClientId} (known : c < mail.srv.nextClient) {out : Outgoing}
    (nextRef : out.nextRef = (mail.out c).nextRef)
    (takes : ∀ taken, (mail.outgoing c).Registered taken →
      taken + out.spent < 2 ^ 63 + (mail.outgoing c).spent →
      ∃ taken', out.Registered taken' ∧ Outgoing.Takes taken taken' (mail.outgoing c) out) :
    (mail.setOutgoing c out).Inv := by
  refine ⟨inv.server, fun few => ?_⟩
  have sent : (mail.setOutgoing c out).sent = mail.sent := by
    have sums := sum_setOutgoing mail known out Outgoing.nextRef fun _ => rfl
    rw [nextRef] at sums
    exact Nat.add_right_cancel sums
  obtain ⟨taken, counted⟩ := inv.counted (sent ▸ few)
  have sums := sum_setOutgoing mail known out Outgoing.spent fun _ => rfl
  have below := spent_le_sent (mail.setOutgoing c out)
  have bound := counted.bound
  -- No client has spent more numbers than messages were sent to it.
  have room : taken + out.spent < 2 ^ 63 + (mail.outgoing c).spent := by
    change _ < 2 ^ 63 + (mail.out c).spent
    change ∑ d ∈ Finset.range mail.srv.nextClient, ((mail.setOutgoing c out).out d).spent ≤ _ at below
    omega
  obtain ⟨taken', registered, takes⟩ := takes taken (counted.registered c) room
  exact ⟨taken', counted.set known registered takes⟩

theorem Inv.processReceiptMsg (inv : mail.Inv) {c : ClientId} (known : c < mail.srv.nextClient)
    {reqMsgId : Int64} (done : mail.processReceiptMsg c reqMsgId = .ok mail') : mail'.Inv := by
  obtain ⟨out, checked, rest⟩ := bind_ok done
  obtain rfl := Except.ok.inj rest
  refine inv.set known (Outgoing.processCheck_spec checked).1 fun taken registered _ => ?_
  exact ⟨taken, registered.processCheck checked⟩

theorem Inv.writeMsg (inv : mail.Inv) {c : ClientId} (known : c < mail.srv.nextClient)
    {results : List (Int × Int)} {curTime : Int}
    (done : mail.writeMsg c results curTime = .ok mail') : mail'.Inv := by
  obtain ⟨out, wrote, rest⟩ := bind_ok done
  obtain rfl := Except.ok.inj rest
  refine inv.set known (Outgoing.writeMsg_spec wrote).1 fun taken registered room => ?_
  exact registered.writeMsg wrote room

theorem known_of_alive {srv : Server} (sound : srv.Sound) {c : ClientId}
    (alive : (srv.clients c).isSome = true) : c < srv.nextClient := by
  by_contra late
  rw [sound.seats.unknown c (Nat.le_of_not_lt late)] at alive
  cases alive

theorem Inv.step (inv : mail.Inv) {e : Event} (done : Mail.step mail e = .ok mail') :
    mail'.Inv := by
  cases e with
  | server e =>
      obtain ⟨srv, first, rest⟩ := bind_ok done
      replace first := mapError_ok first
      have handed := inv.handOver first
      split at rest
      · rename_i c id reqMsgId now
        refine handed.processReceiptMsg ?_ (mapError_ok rest)
        have alive : (mail.srv.clients c).isSome = true := by
          by_contra absent
          simp [Server.step, absent] at first
        exact lt_of_lt_of_le (known_of_alive inv.server.sound alive)
          (Server.step_nextClient inv.server.sound first)
      · obtain rfl := Except.ok.inj rest
        exact handed
  | write c results curTime =>
      by_cases alive : (mail.srv.clients c).isSome = true
      · simp only [Mail.step, alive, ↓reduceIte] at done
        exact inv.writeMsg (known_of_alive inv.server.sound alive) (mapError_ok done)
      · simp [Mail.step, alive] at done

theorem init_inv : init.Inv := by
  have unnumbered (c : ClientId) (ref : MsgRef) (id : Int64) :
      ¬ (init.out c).Numbered ref id := by
    rintro ⟨msg, object, _⟩
    cases object
  refine ⟨@Server.run_inv _ [] rfl, fun _ => ⟨0, fun c => ⟨rfl, by decide, nofun,
    List.nodup_nil, fun ref live => absurd rfl live, fun ref id numbered => ?_,
    fun ref ref' id left => ?_⟩, Nat.zero_le _, fun c c' ref ref' id left => ?_⟩⟩
  · exact absurd numbered (unnumbered c ref id)
  · exact absurd left (unnumbered c ref id)
  · exact absurd left (unnumbered c ref id)

end Steps
end Mail

end Battleship
