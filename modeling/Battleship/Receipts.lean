import Battleship.ReadyFds
import Battleship.Sending

/-! Which messages of a client are acknowledged. `process_msg` does it for every message
at the end of its loop, and the handler of an accepted field has done it before. -/
namespace Battleship

open Runs

def Body.receiptFor : Body → Option Int64
  | .receipt reqMsgId => some reqMsgId
  | _ => none

theorem Body.receiptFor_eq_none {body : Body} (kind : body.type ≠ .receipt) :
    body.receiptFor = none := by
  cases body with
  | receipt id => exact absurd rfl kind
  | _ => rfl

namespace Server

/-- The receipts among all that was queued for the client, by the number they name. -/
def receipts (srv : Server) (c : ClientId) : List Int64 :=
  (srv.toSendMsg c).filterMap fun msg => msg.body.receiptFor

/-- The numbers of the messages of the client that need a receipt. -/
def Event.acknowledged (c : ClientId) : Event → List Int64
  | .message client msg _ => if client = c ∧ msg.type ≠ .receipt then [msg.id] else []
  | _ => []

/-- The client sends a valid field while its session waits for fields. -/
def fieldAccepted (srv : Server) (c : ClientId) : Event → Bool
  | .message client ⟨_, .gameField field _⟩ _ => decide (client = c) && field.isValidStartField &&
      match srv.gameSessionOf c with
      | none => false
      | some s => decide ((srv.sessions s).state = .preparation ∨ (srv.sessions s).state = .waitStart)
  | _ => false

theorem receipts_push (srv : Server) (c c' : ClientId) (msg : Message) :
    (srv.push c' msg).receipts c =
      srv.receipts c ++ if c' = c then msg.body.receiptFor.toList else [] := by
  by_cases same : c' = c
  · subst same
    cases named : msg.body.receiptFor <;> simp [receipts, push, named]
  · simp [receipts, push, same, Function.update_of_ne (Ne.symm same)]

theorem Queues.receipts_eq {srv srv' : Server} {c : ClientId}
    (queues : Queues (fun msg => msg.type ≠ .receipt) srv srv') (alive : srv'.clients c ≠ none) :
    srv'.receipts c = srv.receipts c := by
  obtain ⟨msgs, append, all⟩ := queues.queued c alive
  have nothing : msgs.filterMap (fun msg => msg.body.receiptFor) = [] := by
    rw [List.filterMap_eq_nil_iff]
    exact fun msg member => Body.receiptFor_eq_none (all msg member)
  rw [receipts, append, List.filterMap_append, nothing, List.append_nil, receipts]

theorem new_kind (body : Body) (kind : body.type ≠ .receipt) :
    (Message.new body).type ≠ .receipt := by
  rwa [Message.type, Message.new_body]

def Replies (srv : Server) (c : ClientId) (ids : List Int64) (srv' : Server) : Prop :=
  ∀ c', srv'.clients c' ≠ none →
    srv.clients c' ≠ none ∧ srv'.receipts c' = srv.receipts c' ++ if c = c' then ids else []

theorem Queues.replies {srv srv' : Server}
    (queues : Queues (fun msg => msg.type ≠ .receipt) srv srv') (c : ClientId) :
    srv.Replies c [] srv' := by
  intro c' alive
  refine ⟨fun dead => alive (queues.gone c' dead), ?_⟩
  rw [queues.receipts_eq alive, ite_self, List.append_nil]

theorem processGameFieldMsg_replies {srv : Server} (sound : srv.Sound) {c : ClientId}
    (alive : srv.clients c ≠ none) (id : Int64) (field : GameField) (own : Bool) (now : Int64) :
    Ends (fun _ => True) (srv.processGameFieldMsg c id field)
      (srv.Replies c (if srv.fieldAccepted c (.message c ⟨id, .gameField field own⟩ now) then [id]
        else [])) := by
  have answers (text : String) :
      Ends (fun _ => True) (srv.sendMsg c (errorMsg text)) (srv.Replies c []) :=
    (sendMsg_queues c (new_kind (.error _) (by simp [Body.type]))).mono fun _ queues => queues.replies c
  unfold processGameFieldMsg
  cases session : srv.gameSessionOf c with
  | none => simpa [fieldAccepted, session] using answers _
  | some s =>
      by_cases valid : field.isValidStartField = true
      · by_cases phase : (srv.sessions s).state = .preparation ∨ (srv.sessions s).state = .waitStart
        · obtain ⟨i, seated⟩ := sound.seats.member s c (gameSessionOf_eq.mp session)
          simp only [fieldAccepted, session, valid, phase, decide_true, Bool.and_self, Bool.not_true,
            Bool.false_eq_true, ↓reduceIte, setField_accepted (sound.apart s) seated phase field]
          refine Ends.of_eq (sendMsg_alive (by exact alive) _) fun c' alive' => ⟨alive', ?_⟩
          rw [receipts_push]
          rfl
        · have late : (srv.sessions s).setField c field = none := by
            unfold Session.setField
            rw [if_pos (by tauto)]
          simpa [fieldAccepted, session, valid, phase, late] using answers _
      · simpa [fieldAccepted, session, valid] using answers _

/-- The end of the loop of `process_msg`. -/
theorem Replies.acknowledges {srv : Server} {c : ClientId} {ids : List Int64} {msg : Message}
    {x : Except Fault Server} (handled : Ends (fun _ => True) x (srv.Replies c ids)) (now : Int64) :
    Ends (fun _ => True) (x >>= fun srv₁ => if msg.type ≠ .receipt then
      srv₁.sendMsg c (Message.new (.receipt msg.id)) else .ok srv₁)
      (srv.Replies c (ids ++ Event.acknowledged c (.message c msg now))) := by
  refine handled.bind fun srv₁ replies => ?_
  by_cases kind : msg.type ≠ .receipt
  · by_cases dead : srv₁.clients c = none
    · simp only [kind, not_false_eq_true, ne_eq, ↓reduceIte, sendMsg, dead]
      trivial
    · rw [if_pos kind, sendMsg_alive dead]
      intro c' alive
      refine ⟨(replies c' alive).1, ?_⟩
      rw [receipts_push, (replies c' alive).2]
      by_cases same : c = c'
      · simp [Event.acknowledged, kind, same, Body.receiptFor]
      · simp [same]
  · rw [if_neg kind]
    simpa [Event.acknowledged, kind] using replies

theorem processMsg_replies {srv : Server} (sound : srv.Sound) {c : ClientId}
    (alive : srv.clients c ≠ none) (msg : Message) (now : Int64) :
    Ends (fun _ => True) (srv.processMsg c msg now)
      (srv.Replies c ((if srv.fieldAccepted c (.message c msg now) then [msg.id] else []) ++
        Event.acknowledged c (.message c msg now))) := by
  have plain {x : Except Fault Server} (sends : Sends (fun msg => msg.type ≠ .receipt) srv x) :
      Ends (fun _ => True) x (srv.Replies c []) := sends.mono fun _ queues => queues.replies c
  obtain ⟨id, body⟩ := msg
  unfold processMsg
  dsimp only
  split
  · exact Replies.acknowledges (plain (processGameSessionReqMsg_queues new_kind c now)) now
  · exact Replies.acknowledges (processGameFieldMsg_replies sound alive id _ _ now) now
  · exact Replies.acknowledges (plain (processGameMoveMsg_queues new_kind c _)) now
  · rename_i _ other _
    have refused : srv.fieldAccepted c (.message c ⟨id, body⟩ now) = false := by
      cases body with
      | gameField field own => exact absurd rfl (other field own)
      | _ => rfl
    rw [refused]
    exact Replies.acknowledges (x := .ok srv) (plain (Queues.refl srv)) now

theorem acknowledged_of_accepted {srv : Server} {c : ClientId} {e : Event}
    (accepted : srv.fieldAccepted c e = true) :
    ∃ msg now, e = .message c msg now ∧ e.acknowledged c = [msg.id] := by
  cases e with
  | message c' msg now =>
      obtain ⟨id, body⟩ := msg
      cases body with
      | gameField field own =>
          simp only [fieldAccepted, Bool.and_eq_true, decide_eq_true_eq] at accepted
          obtain rfl := accepted.1.1
          exact ⟨_, now, rfl, by simp [Event.acknowledged, Message.type, Body.type]⟩
      | _ => cases accepted
  | _ => cases accepted

/-- What a step adds to the receipts of a client that was there before it. -/
theorem step_receipts {srv srv' : Server} (sound : srv.Sound) {e : Event}
    (done : srv.step e = .ok srv') {c : ClientId} (known : srv.clients c ≠ none)
    (alive : srv'.clients c ≠ none) :
    srv'.receipts c = srv.receipts c ++ ((if srv.fieldAccepted c e then e.acknowledged c else []) ++
      e.acknowledged c) := by
  have silent {x : Except Fault Server} (sends : Sends (fun msg => msg.type ≠ .receipt) srv x)
      (done : x = .ok srv') : srv'.receipts c = srv.receipts c := (sends.elim done).receipts_eq alive
  cases e with
  | accept =>
      obtain rfl : srv.acceptNewConnection = srv' := Except.ok.inj done
      have same : srv.acceptNewConnection.receipts c = srv.receipts c := by
        unfold acceptNewConnection
        split <;> rfl
      simpa [Event.acknowledged] using same
  | message c' msg now =>
      by_cases present : (srv.clients c').isSome
      · simp only [step, present, ↓reduceIte] at done
        have present' : srv.clients c' ≠ none := Option.isSome_iff_ne_none.mp present
        have replies := ((processMsg_replies sound present' msg now).elim done c alive).2
        -- The sender gets the receipts, nobody else gets any.
        by_cases same : c' = c
        · subst same
          rw [if_pos rfl] at replies
          rw [replies]
          by_cases accepted : srv.fieldAccepted c' (.message c' msg now) = true
          · obtain ⟨_, _, event, one⟩ := acknowledged_of_accepted accepted
            obtain ⟨-, rfl, rfl⟩ := Event.message.inj event
            simp only [accepted, ↓reduceIte, one]
          · simp only [accepted, Bool.false_eq_true, ↓reduceIte]
        · have none_ : Event.acknowledged c (.message c' msg now) = [] := by
            simp [Event.acknowledged, same]
          simpa [same, none_] using replies
      · simp [step, present] at done
  | broken c' =>
      by_cases present : (srv.clients c').isSome
      · simp only [step, present, ↓reduceIte] at done
        simpa [Event.acknowledged] using silent (connBroken_queues new_kind c') done
      · simp [step, present] at done
  | timer id sec usec now draws =>
      cases found : srv.timeoutHandlers.find? fun h => h.id = id with
      | none => simp [step, found] at done
      | some h =>
          simp only [step, found] at done
          simpa [Event.acknowledged] using
            silent (processTimeout_queues new_kind h sec usec now draws) done

/-- A client that is there after the step has been there before, or is a new one. -/
theorem step_known {srv srv' : Server} (sound : srv.Sound) {e : Event}
    (done : srv.step e = .ok srv') {c : ClientId} (old : c < srv.nextClient) :
    c < srv'.nextClient ∧ (srv'.clients c ≠ none → srv.clients c ≠ none) := by
  have moves := step_moves_crew sound done
  by_cases accept : e = .accept
  · subst accept
    obtain rfl : srv.acceptNewConnection = srv' := Except.ok.inj done
    unfold acceptNewConnection
    split
    · exact ⟨old, id⟩
    · have other : c ≠ srv.nextClient := ne_of_lt old
      exact ⟨Nat.lt_succ_of_lt old, fun alive => by simpa [Function.update_of_ne other] using alive⟩
  · obtain ⟨next, alive⟩ := moves.stays accept
    exact ⟨lt_of_lt_of_eq old next.symm, alive c⟩

theorem run_known {srv srv' : Server} (inv : srv.Inv) {es : List Event}
    (done : run srv es = .ok srv') {c : ClientId} (old : c < srv.nextClient)
    (alive : srv'.clients c ≠ none) : srv.clients c ≠ none := by
  induction es generalizing srv with
  | nil =>
      obtain rfl : srv = srv' := Except.ok.inj done
      exact alive
  | cons e es ih =>
      obtain ⟨srv₁, first, rest⟩ := run_cons step done
      obtain ⟨old₁, back⟩ := step_known inv.sound first old
      exact back (ih (step_inv inv first) rest old₁)

/-- The receipts that a run adds are no fewer than those that are asked for, and they are
these exactly when no field is accepted. -/
theorem run_receipts {srv srv' : Server} (inv : srv.Inv) {es : List Event}
    (done : run srv es = .ok srv') {c : ClientId} (known : srv.clients c ≠ none)
    (alive : srv'.clients c ≠ none) : ∃ added, srv'.receipts c = srv.receipts c ++ added ∧
      (es.flatMap (Event.acknowledged c)).length ≤ added.length ∧
      (added = es.flatMap (Event.acknowledged c) ↔
        AllSteps step (fun srv e => srv.fieldAccepted c e = false) srv es) := by
  induction es generalizing srv with
  | nil =>
      obtain rfl : srv = srv' := Except.ok.inj done
      exact ⟨[], (List.append_nil _).symm, le_rfl, iff_of_true rfl trivial⟩
  | cons e es ih =>
      obtain ⟨srv₁, first, rest⟩ := run_cons step done
      have inv₁ := step_inv inv first
      have old : c < srv.nextClient := by
        by_contra new
        exact known (inv.sound.seats.unknown c (Nat.not_lt.mp new))
      have known₁ := run_known inv₁ rest (step_known inv.sound first old).1 alive
      obtain ⟨later, append, enough, exactly⟩ := ih inv₁ rest known₁
      have here := step_receipts inv.sound first known known₁
      have steps : AllSteps step (fun srv e => srv.fieldAccepted c e = false) srv (e :: es) ↔
          srv.fieldAccepted c e = false ∧
            AllSteps step (fun srv e => srv.fieldAccepted c e = false) srv₁ es := by
        simp only [AllSteps, first, Except.ok.injEq, forall_eq']
      refine ⟨_, by rw [append, here, List.append_assoc], ?_, ?_⟩
      · simp only [List.flatMap_cons, List.length_append]
        omega
      · rw [steps, ← exactly, List.flatMap_cons]
        by_cases accepted : srv.fieldAccepted c e = true
        · -- one receipt more than the event asks for
          obtain ⟨_, _, _, one⟩ := acknowledged_of_accepted accepted
          refine iff_of_false (fun same => ?_) fun both => by simp [accepted] at both
          have lengths := congrArg List.length same
          simp only [accepted, one, ↓reduceIte, List.length_append, List.length_singleton] at lengths
          omega
        · simp [accepted]

end Server

/-- From any reachable state on, a client is sent one receipt for each of its messages, in
their order and with their numbers, exactly when no field of it is accepted on the way. -/
theorem receipts_once_iff {srv srv' : Server} (reachable : srv.Reachable)
    {es : List Server.Event} (done : Server.run srv es = .ok srv') {c : ClientId}
    (known : srv.clients c ≠ none) (alive : srv'.clients c ≠ none) :
    srv'.receipts c = srv.receipts c ++ es.flatMap (Server.Event.acknowledged c) ↔
      AllSteps Server.step (fun srv e => srv.fieldAccepted c e = false) srv es := by
  obtain ⟨added, append, _, exactly⟩ := Server.run_receipts reachable.inv done known alive
  rw [append, List.append_cancel_left_eq, exactly]

theorem receipts_once_iff_opening : (Server.after (opening.take 3)).receipts 0 =
    (Server.after (opening.take 2)).receipts 0 ++ [1] := by
  have whole := Server.run_after (opening.take 2 ++ [.message 0 ⟨1, .gameSessionReq⟩ 0])
    (by decide +kernel)
  obtain ⟨srv, before, last⟩ := (run_append_ok Server.step).mp whole
  obtain rfl := Server.after_eq before
  exact (receipts_once_iff ⟨_, before⟩ last (by decide +kernel) (by decide +kernel)).mpr
    ⟨rfl, fun _ _ => trivial⟩

/-- The first field of the opening is acknowledged twice. -/
theorem field_acknowledged_twice :
    ∃ srv srv' : Server, srv.Reachable ∧
      Server.run srv [.message 0 ⟨2, .gameField openingField true⟩ 0] = .ok srv' ∧
      srv.clients 0 ≠ none ∧ srv'.clients 0 ≠ none ∧ srv'.receipts 0 ≠ srv.receipts 0 ++
        [.message 0 ⟨2, .gameField openingField true⟩ 0].flatMap (Server.Event.acknowledged 0) := by
  have whole := Server.run_after (opening.take 4 ++
    [.message 0 ⟨2, .gameField openingField true⟩ 0]) (by decide +kernel)
  obtain ⟨srv, before, last⟩ := (run_append_ok Server.step).mp whole
  obtain rfl := Server.after_eq before
  exact ⟨_, _, ⟨_, before⟩, last, by decide +kernel, by decide +kernel, by decide +kernel⟩

end Battleship
