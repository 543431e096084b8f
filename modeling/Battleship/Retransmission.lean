import Battleship.ByteStream

/-! How often one message is transmitted, and how far apart in time. `resend` runs
after every `write_msg` and looks at the counter and the time of the last transmission
only, not at what is still queued. -/
namespace Battleship

open Runs

structure Sent where
  ref : MsgRef
  time : Int

namespace Outgoing

/-- What the loop of `write_msg` writes completely, receipts apart. -/
def completed (out : Outgoing) : List MsgRef → List (Int × Int) → List Sent
  | [], _ => []
  | ref :: queue, results =>
      match out.objects ref with
      | none => []
      | some msg =>
          let result := results.headD (-1, 0)
          if result.1 = getTypeDataSize msg.type then
            (if msg.type = .receipt then [] else [⟨ref, result.2⟩]) ++
              completed ((out.number ref msg).written ref msg result.2) queue results.tail
          else []

/-- What the clock shows at the writes of a step and at its end. -/
def Event.readings : Event → List Int
  | .write results curTime => results.map Prod.snd ++ [curTime]
  | _ => []

/-- What the clock has shown last after the step. -/
def Event.clock (before : Int) : Event → Int
  | .write _ curTime => curTime
  | _ => before

end Outgoing

/-- The outgoing side with all that it has transmitted completely. After a deleted
message was taken from the queue nothing more is said. -/
structure Transmitter where
  out : Except MsgFault Outgoing
  log : List Sent

/-- No message is transmitted more often than at first and at each attempt of delivery
control, nor twice within the time of resending. -/
structure Spaced (resendCnt resendTime : Int) (log : List Sent) : Prop where
  few : ∀ ref, ((log.map Sent.ref).count ref : Int) ≤ 1 + resendCnt
  apart : log.Pairwise fun earlier later =>
    earlier.ref = later.ref → resendTime < later.time - earlier.time

namespace Transmitter

def init (resendCnt resendTime : Int) : Transmitter :=
  ⟨.ok (Outgoing.init resendCnt resendTime), []⟩

def completes (transmitter : Transmitter) (e : Outgoing.Event) : List Sent :=
  match transmitter.out, e with
  | .ok out, .write results _ => out.completed out.toSendMsg results
  | _, _ => []

def step (transmitter : Transmitter) (e : Outgoing.Event) : Except MsgFault Transmitter :=
  .ok ⟨transmitter.out >>= fun out => out.step e, transmitter.log ++ transmitter.completes e⟩

structure Bounded (resendCnt resendTime : Int) (transmitter : Transmitter) : Prop where
  spaced : Spaced resendCnt resendTime transmitter.log
  queued : ∀ out, transmitter.out = .ok out → ∀ ref, out.type ref ≠ some .receipt →
    out.toSendMsg.count ref ≤ 1

/-- A `write_msg` that fails at no message sent before, and with none behind it. -/
def Fresh (transmitter : Transmitter) (e : Outgoing.Event) : Prop :=
  ∀ out results curTime, transmitter.out = .ok out → e = .write results curTime →
    ∀ ref ∈ out.waiting out.toSendMsg results, out.underControl ref = false

end Transmitter

/-- The clock never goes backwards. -/
def Steady (es : List Outgoing.Event) : Prop :=
  (es.flatMap Outgoing.Event.readings).Pairwise (· ≤ ·)

theorem count_snoc (log : List Sent) (ref other : MsgRef) (time : Int) :
    ((log ++ [Sent.mk ref time]).map Sent.ref).count other =
      (log.map Sent.ref).count other + if ref = other then 1 else 0 := by
  rw [List.map_append, List.count_append, List.map_singleton, List.count_singleton]
  simp

theorem Spaced.snoc {resendCnt resendTime : Int} {log : List Sent}
    (spaced : Spaced resendCnt resendTime log) {ref : MsgRef} {time : Int}
    (left : ((log.map Sent.ref).count ref : Int) ≤ resendCnt)
    (past : ∀ sent ∈ log, sent.ref = ref → resendTime < time - sent.time) :
    Spaced resendCnt resendTime (log ++ [⟨ref, time⟩]) := by
  constructor
  · intro other
    have before := spaced.few other
    rw [count_snoc]
    split_ifs with same
    · subst same
      omega
    · exact before
  · rw [List.pairwise_append]
    refine ⟨spaced.apart, List.pairwise_singleton _ _, fun earlier member later last => ?_⟩
    obtain rfl := List.mem_singleton.mp last
    exact past earlier member

namespace Outgoing

/-- A queue without repetitions, whose messages under control are due; the counter of
each is what the transmissions have left of it. -/
structure Paced (resendCnt resendTime : Int) (out : Outgoing) (queue : List MsgRef)
    (log : List Sent) (clock : Int) : Prop where
  cnt : out.resendCnt = resendCnt
  time : out.resendTime = resendTime
  single : queue.Nodup
  queued : ∀ ref ∈ queue, ref < out.nextRef
  known : ∀ sent ∈ log, sent.ref < out.nextRef
  apart : (out.control.map ListItem.msg).Nodup
  owned : ∀ item ∈ out.control, item.msg < out.nextRef ∧ out.type item.msg ≠ some .receipt
  counted : ∀ item ∈ out.control,
    ((log.map Sent.ref).count item.msg : Int) + item.resendCnt = 1 + resendCnt
  noted : ∀ item ∈ out.control, item.lastSendTime ≤ clock ∧
    ∀ sent ∈ log, sent.ref = item.msg → sent.time ≤ item.lastSendTime
  due : ∀ item ∈ out.control, item.msg ∈ queue →
    0 < item.resendCnt ∧ resendTime < clock - item.lastSendTime
  held : ∀ sent ∈ log, out.type sent.ref ≠ none → out.underControl sent.ref = true
  spaced : Spaced resendCnt resendTime log

section Pace

variable {resendCnt resendTime clock : Int} {out : Outgoing} {queue : List MsgRef}
  {log : List Sent}

theorem Paced.later (paced : out.Paced resendCnt resendTime queue log clock) {time : Int}
    (after : clock ≤ time) : out.Paced resendCnt resendTime queue log time where
  __ := paced
  noted := fun item member =>
    ⟨(paced.noted item member).1.trans after, (paced.noted item member).2⟩
  due := fun item member inside => by
    obtain ⟨left, waited⟩ := paced.due item member inside
    exact ⟨left, by omega⟩

theorem Paced.perm (paced : out.Paced resendCnt resendTime queue log clock)
    {queue' : List MsgRef} (same : queue'.Perm queue) :
    out.Paced resendCnt resendTime queue' log clock where
  __ := paced
  single := same.nodup_iff.mpr paced.single
  queued := fun ref inside => paced.queued ref (same.mem_iff.mp inside)
  due := fun item member inside => paced.due item member (same.mem_iff.mp inside)

theorem Paced.number (paced : out.Paced resendCnt resendTime queue log clock) {ref : MsgRef}
    {msg : Message} (alive : out.objects ref = some msg) :
    (out.number ref msg).Paced resendCnt resendTime queue log clock := by
  have types := number_type out alive
  have control := number_control out ref msg
  have next := number_nextRef out ref msg
  have under (other : MsgRef) : (out.number ref msg).underControl other = out.underControl other := by
    simp only [underControl, control]
  obtain ⟨cnt, time, single, queued, known, apart, owned, counted, noted, due, held, spaced⟩ := paced
  refine ⟨(number_resendCnt out ref msg).trans cnt, ?_, single, ?_, ?_, ?_, ?_, ?_, ?_, ?_, ?_,
    spaced⟩
  · rw [← time]
    unfold Outgoing.number
    split_ifs <;> rfl
  all_goals simpa only [types, control, next, under]

theorem Paced.delete {ref : MsgRef} (paced : out.Paced resendCnt resendTime (ref :: queue) log clock)
    (receipt : out.type ref = some .receipt) :
    (out.delete ref).Paced resendCnt resendTime queue log clock where
  __ := paced
  single := (List.nodup_cons.mp paced.single).2
  queued := fun other inside => paced.queued other (List.mem_cons_of_mem _ inside)
  owned := fun item member => by
    obtain ⟨known, other⟩ := paced.owned item member
    refine ⟨known, ?_⟩
    rw [delete_type, if_neg]
    · exact other
    · rintro same
      exact other (same ▸ receipt)
  due := fun item member inside => paced.due item member (List.mem_cons_of_mem _ inside)
  held := fun sent member live => by
    rw [delete_type] at live
    split_ifs at live
    · exact absurd rfl live
    · exact paced.held sent member live

theorem Paced.known_snoc {ref : MsgRef}
    (paced : out.Paced resendCnt resendTime (ref :: queue) log clock) :
    ∀ sent ∈ log ++ [⟨ref, clock⟩], sent.ref < out.nextRef := by
  refine List.forall_mem_append.mpr ⟨paced.known, ?_⟩
  intro sent last
  obtain rfl := List.mem_singleton.mp last
  exact paced.queued ref List.mem_cons_self

/-- A time that is not before any transmission of the one message is not after the new
transmission of the other one. -/
theorem noted_snoc {ref other : MsgRef} {last : Int}
    (before : ∀ sent ∈ log, sent.ref = other → sent.time ≤ last)
    (new : ref = other → clock ≤ last) :
    ∀ sent ∈ log ++ [⟨ref, clock⟩], sent.ref = other → sent.time ≤ last := by
  refine List.forall_mem_append.mpr ⟨before, ?_⟩
  intro sent inside
  obtain rfl := List.mem_singleton.mp inside
  exact new

theorem Paced.held_snoc {ref : MsgRef}
    (paced : out.Paced resendCnt resendTime queue log clock) {out' : Outgoing}
    (types : ∀ other, out'.type other = out.type other)
    (under : ∀ other, out'.underControl other = (out.underControl other || other = ref)) :
    ∀ sent ∈ log ++ [⟨ref, clock⟩], out'.type sent.ref ≠ none →
      out'.underControl sent.ref = true := by
  refine List.forall_mem_append.mpr ⟨fun sent member live => ?_, fun sent member _ => ?_⟩
  · rw [under, paced.held sent member (types sent.ref ▸ live), Bool.true_or]
  · obtain rfl := List.mem_singleton.mp member
    simp [under]

theorem Paced.add {ref : MsgRef} (paced : out.Paced resendCnt resendTime (ref :: queue) log clock)
    (enough : 0 ≤ resendCnt) {t : MsgType} (type : out.type ref = some t) (other : t ≠ .receipt)
    (free : out.underControl ref = false) :
    (out.add ref clock).Paced resendCnt resendTime queue (log ++ [⟨ref, clock⟩]) clock := by
  -- A message that was sent before and lives is under control, and this one is not.
  have never (sent : Sent) (member : sent ∈ log) : sent.ref ≠ ref := by
    rintro rfl
    cases (paced.held sent member (by simp [type])).symm.trans free
  have absent : (log.map Sent.ref).count ref = 0 := by
    refine List.count_eq_zero.mpr fun inside => ?_
    obtain ⟨sent, member, same⟩ := List.mem_map.mp inside
    exact never sent member same
  have elsewhere {item : ListItem} (member : item ∈ out.control) : item.msg ≠ ref := by
    rintro same
    cases (underControl_iff.mpr ⟨item, member, same⟩).symm.trans free
  have alone : ref ∉ queue := (List.nodup_cons.mp paced.single).1
  have below : ref < out.nextRef := paced.queued ref List.mem_cons_self
  constructor
  · exact paced.cnt
  · exact paced.time
  · exact (List.nodup_cons.mp paced.single).2
  · exact fun other inside => paced.queued other (List.mem_cons_of_mem _ inside)
  · exact paced.known_snoc
  · refine List.nodup_cons.mpr ⟨fun inside => ?_, paced.apart⟩
    obtain ⟨item, member, same⟩ := List.mem_map.mp inside
    exact elsewhere member same
  · intro item member
    rcases List.mem_cons.mp member with rfl | old
    · refine ⟨below, fun receipt => other ?_⟩
      exact Option.some.inj (type.symm.trans receipt)
    · exact paced.owned item old
  · intro item member
    rw [count_snoc]
    rcases List.mem_cons.mp member with rfl | old
    · have cnt := paced.cnt
      simp only [absent, ↓reduceIte]
      omega
    · rw [if_neg (elsewhere old).symm]
      exact paced.counted item old
  · intro item member
    rcases List.mem_cons.mp member with rfl | old
    · refine ⟨le_refl _, noted_snoc ?_ fun _ => le_refl _⟩
      exact fun sent before same => absurd same (never sent before)
    · refine ⟨(paced.noted item old).1, noted_snoc (paced.noted item old).2 ?_⟩
      exact fun same => absurd same.symm (elsewhere old)
  · intro item member inside
    rcases List.mem_cons.mp member with rfl | old
    -- The new item is not due, but its message has left the queue.
    · exact absurd inside alone
    · exact paced.due item old (List.mem_cons_of_mem _ inside)
  · refine paced.held_snoc (fun _ => rfl) fun other => ?_
    rw [add_underControl, Bool.or_comm, decide_eq_decide.mpr (eq_comm : ref = other ↔ _)]
  · refine paced.spaced.snoc (by omega) fun sent member same => ?_
    exact absurd same (never sent member)

theorem mem_decrease {ref : MsgRef} {now : Int} {item' : ListItem} :
    item' ∈ (out.decrease ref now).control ↔ ∃ item ∈ out.control,
      (item.msg = ref ∧ item' = ⟨ref, now, item.resendCnt - 1⟩) ∨
        (item.msg ≠ ref ∧ item' = item) := by
  rw [decrease, List.mem_map]
  refine exists_congr fun item => and_congr_right fun _ => ?_
  split_ifs with same <;> simp [same, eq_comm]

theorem Paced.decrease {ref : MsgRef}
    (paced : out.Paced resendCnt resendTime (ref :: queue) log clock)
    (controlled : out.underControl ref = true) :
    (out.decrease ref clock).Paced resendCnt resendTime queue (log ++ [⟨ref, clock⟩]) clock := by
  obtain ⟨item₀, member₀, rfl⟩ := underControl_iff.mp controlled
  obtain ⟨left, waited⟩ := paced.due item₀ member₀ List.mem_cons_self
  have alone : item₀.msg ∉ queue := (List.nodup_cons.mp paced.single).1
  obtain ⟨below, other⟩ := paced.owned item₀ member₀
  have count₀ := paced.counted item₀ member₀
  constructor
  · exact paced.cnt
  · exact paced.time
  · exact (List.nodup_cons.mp paced.single).2
  · exact fun other inside => paced.queued other (List.mem_cons_of_mem _ inside)
  · exact paced.known_snoc
  · rw [decrease_msgs]
    exact paced.apart
  · intro item' member
    obtain ⟨item, old, ⟨_, rfl⟩ | ⟨_, rfl⟩⟩ := mem_decrease.mp member
    · exact ⟨below, other⟩
    · exact paced.owned _ old
  · intro item' member
    rw [count_snoc]
    obtain ⟨item, old, ⟨same, rfl⟩ | ⟨differs, rfl⟩⟩ := mem_decrease.mp member
    · have count := paced.counted item old
      rw [same] at count
      simp only [↓reduceIte]
      push_cast
      omega
    · rw [if_neg (Ne.symm differs)]
      exact paced.counted _ old
  · intro item' member
    obtain ⟨item, old, ⟨same, rfl⟩ | ⟨differs, rfl⟩⟩ := mem_decrease.mp member
    · obtain ⟨past, last⟩ := paced.noted item old
      refine ⟨le_refl _, noted_snoc ?_ fun _ => le_refl _⟩
      exact fun sent before same' => (last sent before (same'.trans same.symm)).trans past
    · obtain ⟨past, last⟩ := paced.noted _ old
      refine ⟨past, noted_snoc last ?_⟩
      exact fun same' => absurd same'.symm differs
  · intro item' member inside
    obtain ⟨item, old, ⟨same, rfl⟩ | ⟨differs, rfl⟩⟩ := mem_decrease.mp member
    · exact absurd inside alone
    · exact paced.due _ old (List.mem_cons_of_mem _ inside)
  · refine paced.held_snoc (fun _ => rfl) fun other => ?_
    -- `decrease` leaves the messages under control as they are, and `ref` is one of them
    rw [Bool.eq_iff_iff, Bool.or_eq_true, decide_eq_true_eq]
    have same : (out.decrease item₀.msg clock).underControl other = true ↔
        out.underControl other = true := by
      rw [underControl_mem, underControl_mem, decrease_msgs]
    rw [same, or_iff_left_of_imp]
    rintro rfl
    exact controlled
  · refine paced.spaced.snoc (by omega) fun sent member same => ?_
    have last := (paced.noted item₀ member₀).2 sent member same
    omega

theorem Paced.written {ref : MsgRef}
    (paced : out.Paced resendCnt resendTime (ref :: queue) log clock) (enough : 0 ≤ resendCnt)
    {msg : Message} (alive : out.objects ref = some msg) {time : Int} (after : clock ≤ time) :
    ((out.number ref msg).written ref msg time).Paced resendCnt resendTime queue
      (log ++ if msg.type = .receipt then [] else [⟨ref, time⟩]) time := by
  have now := (paced.number alive).later after
  have type : (out.number ref msg).type ref = some msg.type := by
    rw [number_type out alive, Outgoing.type, alive, Option.map_some]
  unfold Outgoing.written
  split_ifs with receipt free
  · rw [List.append_nil]
    exact now.delete (receipt ▸ type)
  · exact now.add enough type receipt (by simpa using free)
  · exact now.decrease (by simpa using free)

/-- The loop keeps the pace, also where it meets a deleted message. -/
theorem Paced.writeLoop (paced : out.Paced resendCnt resendTime queue log clock)
    (enough : 0 ≤ resendCnt) {results : List (Int × Int)} {curTime : Int}
    (steady : (clock :: (results.map Prod.snd ++ [curTime])).Pairwise (· ≤ ·)) :
    Spaced resendCnt resendTime (log ++ out.completed queue results) ∧
      ∀ out', out.writeLoop queue results = .ok out' → out'.Paced resendCnt resendTime
        (out.waiting queue results) (log ++ out.completed queue results) curTime := by
  -- Each complete write moves the clock on, so the invariant is kept at its reading.
  induction queue generalizing out results log clock with
  | nil =>
      have past : clock ≤ curTime := (List.pairwise_cons.mp steady).1 curTime (by simp)
      rw [completed, waiting, List.append_nil]
      refine ⟨paced.spaced, fun out' done => ?_⟩
      cases done
      exact { paced.later past with }
  | cons ref queue ih =>
      have past : clock ≤ curTime := (List.pairwise_cons.mp steady).1 curTime (by simp)
      rw [completed, waiting, Outgoing.writeLoop]
      cases alive : out.objects ref with
      | none =>
          rw [List.append_nil]
          refine ⟨paced.spaced, fun out' done => ?_⟩
          contradiction
      | some msg =>
          by_cases complete : (results.headD (-1, 0)).1 = getTypeDataSize msg.type
          · simp only [complete, ↓reduceIte]
            cases results with
            | nil =>
                -- No result stands for a failed write, and no type has size -1.
                rw [List.headD_nil] at complete
                unfold getTypeDataSize at complete
                omega
            | cons result results =>
                obtain ⟨ahead, later⟩ := List.pairwise_cons.mp steady
                rw [← List.append_assoc]
                exact ih (paced.written enough alive (ahead result.2 (by simp))) later
          · simp only [complete, ↓reduceIte]
            rw [List.append_nil]
            refine ⟨paced.spaced, fun out' done => ?_⟩
            cases done
            exact { (paced.number alive).later past with }

theorem waiting_suffix (out : Outgoing) (queue : List MsgRef) (results : List (Int × Int)) :
    out.waiting queue results <:+ queue := by
  fun_induction Outgoing.waiting out queue results with
  | case1 => exact List.suffix_rfl
  | case2 => exact List.nil_suffix
  | case3 out ref queue results msg alive result complete ih =>
      exact ih.trans (List.suffix_cons ref queue)
  | case4 => exact List.suffix_rfl

theorem putBack_perm (queue : List MsgRef) : (putBack queue).Perm queue := by
  cases queue with
  | nil => exact List.Perm.refl []
  | cons ref queue => exact List.perm_append_singleton ref queue

theorem written_underControl {ref other : MsgRef} (differs : other ≠ ref) (msg : Message)
    (now : Int) : (out.written ref msg now).underControl other = out.underControl other := by
  unfold Outgoing.written
  split_ifs
  · rfl
  · rw [add_underControl]
    simp [Ne.symm differs]
  · rw [Bool.eq_iff_iff, underControl_mem, underControl_mem, decrease_msgs]

/-- The loop does not touch the items of the messages that are left in the queue. -/
theorem writeLoop_waiting (single : queue.Nodup) {results : List (Int × Int)} {out' : Outgoing}
    (done : out.writeLoop queue results = .ok out') :
    ∀ ref ∈ out.waiting queue results, out'.underControl ref = out.underControl ref := by
  induction queue generalizing out results with
  | nil =>
      intro ref inside
      exact absurd inside List.not_mem_nil
  | cons ref queue ih =>
      obtain ⟨alone, single'⟩ := List.nodup_cons.mp single
      rw [Outgoing.writeLoop] at done
      rw [waiting]
      cases alive : out.objects ref with
      | none =>
          intro other inside
          exact absurd inside List.not_mem_nil
      | some msg =>
          rw [alive] at done
          have numbered (other : MsgRef) :
              (out.number ref msg).underControl other = out.underControl other := by
            simp only [underControl, number_control]
          by_cases complete : (results.headD (-1, 0)).1 = getTypeDataSize msg.type
          · simp only [complete, ↓reduceIte] at done ⊢
            intro other inside
            have behind := (waiting_suffix _ _ _).subset inside
            rw [ih single' done other inside, written_underControl, numbered]
            rintro rfl
            exact alone behind
          · simp only [complete, ↓reduceIte] at done ⊢
            cases done
            exact fun other _ => numbered other

theorem rmAllExhausted_settings (out : Outgoing) (chain : List ListItem) :
    (out.rmAllExhausted chain).resendCnt = out.resendCnt ∧
      (out.rmAllExhausted chain).resendTime = out.resendTime := by
  induction chain generalizing out with
  | nil => exact ⟨rfl, rfl⟩
  | cons item chain ih =>
      rw [rmAllExhausted]
      split_ifs
      · exact ih _
      · exact ih out

theorem resend_queue (out : Outgoing) (curTime : Int) : (out.resend curTime).toSendMsg =
    out.toSendMsg ++ (out.control.filter fun item => out.needResend item curTime).map ListItem.msg :=
  (rmAllExhausted_spec _ _).1

theorem Paced.needResend_iff (paced : out.Paced resendCnt resendTime queue log clock)
    (item : ListItem) : out.needResend item clock = true ↔
      0 < item.resendCnt ∧ resendTime < clock - item.lastSendTime := by
  rw [Outgoing.needResend, decide_eq_true_eq, paced.time]

/-- With no message under control in the queue, `resend` queues none twice. -/
theorem Paced.resend (paced : out.Paced resendCnt resendTime out.toSendMsg log clock)
    (free : ∀ ref ∈ out.toSendMsg, out.underControl ref = false) :
    (out.resend clock).Paced resendCnt resendTime (out.resend clock).toSendMsg log clock := by
  obtain ⟨resent, again⟩ := resend_resent paced.apart clock
  obtain ⟨cnt, time⟩ := rmAllExhausted_settings { out with toSendMsg := out.toSendMsg ++
    (out.control.filter fun item => out.needResend item clock).map ListItem.msg } out.control
  have kept {item : ListItem} (member : item ∈ (out.resend clock).control) : item ∈ out.control :=
    ((again.control item).mp member).1
  have again_due {ref : MsgRef} (inside : ref ∈ (out.control.filter fun item =>
      out.needResend item clock).map ListItem.msg) : ∃ item ∈ out.control, item.msg = ref ∧
        0 < item.resendCnt ∧ resendTime < clock - item.lastSendTime := by
    obtain ⟨item, member, same⟩ := List.mem_map.mp inside
    obtain ⟨member, need⟩ := List.mem_filter.mp member
    exact ⟨item, member, same, (paced.needResend_iff item).mp need⟩
  constructor
  · exact cnt.trans paced.cnt
  · exact time.trans paced.time
  · rw [resend_queue, List.nodup_append']
    refine ⟨paced.single, paced.apart.sublist (List.filter_sublist.map _), ?_⟩
    intro ref waits inside
    obtain ⟨item, member, same, _⟩ := again_due inside
    -- What is queued again was under control, and the queue held no such message.
    cases (underControl_iff.mpr ⟨item, member, same⟩).symm.trans (free ref waits)
  · intro ref inside
    rw [again.nextRef]
    rw [resend_queue] at inside
    rcases List.mem_append.mp inside with waits | more
    · exact paced.queued ref waits
    · obtain ⟨item, member, rfl, _⟩ := again_due more
      exact (paced.owned item member).1
  · rw [again.nextRef]
    exact paced.known
  · exact again.apart
  · intro item member
    obtain ⟨known, other⟩ := paced.owned item (kept member)
    refine ⟨known.trans_eq again.nextRef.symm, ?_⟩
    rcases again.types item.msg with same | ⟨_, _, _, _, dead⟩
    · rwa [same]
    · rw [dead]
      nofun
  · exact fun item member => paced.counted item (kept member)
  · exact fun item member => paced.noted item (kept member)
  · intro item member inside
    rw [resend_queue] at inside
    rcases List.mem_append.mp inside with waits | more
    · cases (underControl_iff.mpr ⟨item, kept member, rfl⟩).symm.trans (free _ waits)
    · obtain ⟨other, member', same, due⟩ := again_due more
      obtain rfl := apart_eq paced.apart member' (kept member) same
      exact due
  · intro sent member live
    obtain ⟨item, inside, same⟩ :=
      underControl_iff.mp (paced.held sent member (again.live live ▸ live))
    refine underControl_iff.mpr ⟨item, (again.control item).mpr ⟨inside, ?_⟩, same⟩
    -- An item that is gone had no attempts left, so its message was deleted with it.
    by_contra spent
    exact live (same ▸ again.dead item inside (not_lt.mp spent))
  · exact paced.spaced

/-- One call of `write_msg`. What was sent before and is left in the queue is due, so
that `resend` queues it once more. -/
theorem Paced.writeMsg (paced : out.Paced resendCnt resendTime out.toSendMsg log clock)
    (enough : 0 ≤ resendCnt) {results : List (Int × Int)} {curTime : Int}
    (steady : (clock :: (results.map Prod.snd ++ [curTime])).Pairwise (· ≤ ·)) {out' : Outgoing}
    (done : out.writeMsg results curTime = .ok out') :
    ((∀ ref, out'.type ref ≠ some .receipt → out'.toSendMsg.count ref ≤ 1) ↔
        ∀ ref ∈ out.waiting out.toSendMsg results, out.underControl ref = false) ∧
      ((∀ ref ∈ out.waiting out.toSendMsg results, out.underControl ref = false) →
        out'.Paced resendCnt resendTime out'.toSendMsg
          (log ++ out.completed out.toSendMsg results) curTime) := by
  obtain ⟨out₁, looped, rest⟩ := bind_ok done
  obtain rfl := Except.ok.inj rest
  have paced₁ := (paced.writeLoop enough steady).2 out₁ looped
  obtain ⟨-, left, -⟩ := writeLoop_spec looped
  have same := writeLoop_waiting paced.single looped
  have waits (ref : MsgRef) : ref ∈ out₁.toSendMsg ↔ ref ∈ out.waiting out.toSendMsg results := by
    rw [left]
    exact (putBack_perm _).mem_iff
  have queued₁ := paced₁.perm (left ▸ putBack_perm _)
  have next (free : ∀ ref ∈ out.waiting out.toSendMsg results, out.underControl ref = false) :
      (out₁.resend curTime).Paced resendCnt resendTime (out₁.resend curTime).toSendMsg
        (log ++ out.completed out.toSendMsg results) curTime := by
    refine queued₁.resend fun ref inside => ?_
    have inside := (waits ref).mp inside
    rw [same ref inside]
    exact free ref inside
  refine ⟨⟨fun once ref inside => ?_, fun free ref _ => ?_⟩, next⟩
  -- A message under control that is left in the queue is due: `resend` adds it again.
  · rw [← same ref inside]
    by_contra controlled
    obtain ⟨item, member, rfl⟩ := underControl_iff.mp (Bool.not_eq_false _ ▸ controlled)
    have due := (paced₁.needResend_iff item).mpr (paced₁.due item member inside)
    obtain ⟨resent, again⟩ := resend_resent paced₁.apart curTime
    have other : (out₁.resend curTime).type item.msg ≠ some .receipt := by
      rcases again.types item.msg with kept | ⟨_, _, _, _, dead⟩
      · rw [kept]
        exact (paced₁.owned item member).2
      · rw [dead]
        nofun
    have resent : item ∈ out₁.control.filter fun item => out₁.needResend item curTime :=
      List.mem_filter.mpr ⟨member, due⟩
    -- It would stand in the queue twice, from before and from `resend`.
    have twice := once item.msg other
    rw [resend_queue, List.count_append] at twice
    have first := List.count_pos_iff.mpr ((waits item.msg).mpr inside)
    have second := List.count_pos_iff.mpr (List.mem_map_of_mem (f := ListItem.msg) resent)
    omega
  · exact List.nodup_iff_count_le_one.mp (next free).single ref

theorem Paced.sendMsg (paced : out.Paced resendCnt resendTime out.toSendMsg log clock)
    (msg : Message) : (out.sendMsg msg).Paced resendCnt resendTime
      (out.sendMsg msg).toSendMsg log clock := by
  have queue : (out.sendMsg msg).toSendMsg = out.toSendMsg ++ [out.nextRef] := rfl
  have old {ref : MsgRef} (below : ref < out.nextRef) :
      (out.sendMsg msg).type ref = out.type ref := by
    rw [sendMsg_type, if_neg (Nat.ne_of_lt below)]
  constructor
  · exact paced.cnt
  · exact paced.time
  · rw [queue]
    refine List.nodup_append'.mpr ⟨paced.single, List.nodup_singleton _, ?_⟩
    intro ref inside last
    exact Nat.ne_of_lt (paced.queued ref inside) (List.mem_singleton.mp last)
  · intro ref inside
    rw [queue] at inside
    rcases List.mem_append.mp inside with before | last
    · exact Nat.lt_succ_of_lt (paced.queued ref before)
    · obtain rfl := List.mem_singleton.mp last
      exact Nat.lt_succ_self _
  · exact fun sent member => Nat.lt_succ_of_lt (paced.known sent member)
  · exact paced.apart
  · intro item member
    obtain ⟨below, other⟩ := paced.owned item member
    exact ⟨Nat.lt_succ_of_lt below, by rwa [old below]⟩
  · exact paced.counted
  · exact paced.noted
  · intro item member inside
    rw [queue] at inside
    rcases List.mem_append.mp inside with before | last
    · exact paced.due item member before
    · exact absurd (List.mem_singleton.mp last) (Nat.ne_of_lt (paced.owned item member).1)
  · intro sent member live
    rw [old (paced.known sent member)] at live
    exact paced.held sent member live
  · exact paced.spaced

theorem Paced.removeMsg (paced : out.Paced resendCnt resendTime queue log clock)
    (item : ListItem) : (out.removeMsg item).Paced resendCnt resendTime queue log clock := by
  have kept {other : ListItem} (member : other ∈ (out.removeMsg item).control) :
      other ∈ out.control := (List.mem_filter.mp member).1
  constructor
  · exact paced.cnt
  · exact paced.time
  · exact paced.single
  · exact paced.queued
  · exact paced.known
  · exact paced.apart.sublist (List.filter_sublist.map _)
  · intro other member
    obtain ⟨below, differs⟩ := paced.owned other (kept member)
    refine ⟨below, ?_⟩
    rw [removeMsg_type]
    split_ifs
    · nofun
    · exact differs
  · exact fun other member => paced.counted other (kept member)
  · exact fun other member => paced.noted other (kept member)
  · exact fun other member => paced.due other (kept member)
  · intro sent member live
    rw [removeMsg_type] at live
    split_ifs at live with same
    · exact absurd rfl live
    · obtain ⟨other, inside, under⟩ := underControl_iff.mp (paced.held sent member live)
      refine underControl_iff.mpr ⟨other, List.mem_filter.mpr ⟨inside, ?_⟩, under⟩
      simpa [under] using same
  · exact paced.spaced

theorem Paced.processCheck (paced : out.Paced resendCnt resendTime out.toSendMsg log clock)
    {reqMsgId : Int64} {out' : Outgoing} (done : out.processCheck reqMsgId = .ok out') :
    out'.Paced resendCnt resendTime out'.toSendMsg log clock := by
  obtain ⟨found, -, rest⟩ := bind_ok done
  cases found with
  | none =>
      obtain rfl := Except.ok.inj rest
      exact paced
  | some item =>
      obtain rfl := Except.ok.inj rest
      exact paced.removeMsg item

end Pace
end Outgoing

namespace Transmitter

structure Inv (resendCnt resendTime : Int) (transmitter : Transmitter) (clock : Int) : Prop where
  spaced : Spaced resendCnt resendTime transmitter.log
  paced : ∀ out, transmitter.out = .ok out →
    out.Paced resendCnt resendTime out.toSendMsg transmitter.log clock

variable {resendCnt resendTime clock : Int} {transmitter : Transmitter}

theorem init_inv (enough : 0 ≤ resendCnt) (clock : Int) :
    (init resendCnt resendTime).Inv resendCnt resendTime clock := by
  have spaced : Spaced resendCnt resendTime [] :=
    ⟨fun _ => by simp only [List.map_nil, List.count_nil]; omega, List.Pairwise.nil⟩
  refine ⟨spaced, fun out same => ?_⟩
  cases same
  exact ⟨rfl, rfl, List.nodup_nil, nofun, nofun, List.nodup_nil, nofun, nofun, nofun, nofun, nofun,
    spaced⟩

theorem Inv.bounded (inv : transmitter.Inv resendCnt resendTime clock) :
    transmitter.Bounded resendCnt resendTime :=
  ⟨inv.spaced, fun out alive ref _ =>
    List.nodup_iff_count_le_one.mp (inv.paced out alive).single ref⟩

theorem Inv.of_paced {out : Outgoing} {log : List Sent}
    (paced : out.Paced resendCnt resendTime out.toSendMsg log clock) :
    Inv resendCnt resendTime ⟨.ok out, log⟩ clock := by
  refine ⟨paced.spaced, fun out' same => ?_⟩
  cases same
  exact paced

theorem Inv.of_fault {log : List Sent} (spaced : Spaced resendCnt resendTime log)
    (fault : MsgFault) : Inv resendCnt resendTime ⟨.error fault, log⟩ clock :=
  ⟨spaced, nofun⟩

theorem Inv.fresh {transmitter' : Transmitter} {e : Outgoing.Event}
    (inv : transmitter'.Inv resendCnt resendTime clock) (fresh : transmitter.Fresh e) :
    (transmitter'.Bounded resendCnt resendTime ↔ transmitter.Fresh e) ∧
      (transmitter.Fresh e → transmitter'.Inv resendCnt resendTime clock) :=
  ⟨iff_of_true inv.bounded fresh, fun _ => inv⟩

/-- A step keeps the bounds exactly if it is fresh, and then the invariant too. Only a
`write_msg` that returns can queue a message twice. -/
theorem Inv.step (inv : transmitter.Inv resendCnt resendTime clock) (enough : 0 ≤ resendCnt)
    {e : Outgoing.Event} {transmitter' : Transmitter}
    (steady : (clock :: e.readings).Pairwise (· ≤ ·))
    (done : Transmitter.step transmitter e = .ok transmitter') :
    (transmitter'.Bounded resendCnt resendTime ↔ transmitter.Fresh e) ∧
      (transmitter.Fresh e → transmitter'.Inv resendCnt resendTime (e.clock clock)) := by
  obtain ⟨state, log⟩ := transmitter
  obtain rfl := Except.ok.inj done
  cases state with
  -- After a fault nothing is sent any more.
  | error fault =>
      refine Inv.fresh ?_ (fun out _ _ same => by cases same)
      simp only [completes, List.append_nil]
      exact .of_fault inv.spaced fault
  | ok out =>
      have paced := inv.paced out rfl
      cases e with
      | send msg =>
          refine Inv.fresh ?_ (fun _ _ _ _ => nofun)
          simp only [completes, List.append_nil]
          exact .of_paced (paced.sendMsg msg)
      | receipt reqMsgId =>
          refine Inv.fresh ?_ (fun _ _ _ _ => nofun)
          simp only [completes, List.append_nil]
          refine ⟨inv.spaced, fun out' checked => ?_⟩
          exact paced.processCheck checked
      | others taken =>
          refine Inv.fresh ?_ (fun _ _ _ _ => nofun)
          simp only [completes, List.append_nil]
          exact .of_paced { paced with }
      | write results curTime =>
          have spaced := (paced.writeLoop enough steady).1
          -- The log grows by what the loop wrote, also where it ends in a fault.
          cases wrote : out.writeMsg results curTime with
          | error fault =>
              have after : (Except.ok out >>= fun out => out.step (.write results curTime)) =
                  .error fault := wrote
              simp only [after, completes]
              refine Inv.fresh (.of_fault spaced fault) ?_
              intro _ _ _ same write ref inside
              cases same
              cases write
              rw [Outgoing.waiting_of_fault (Outgoing.writeMsg_fault wrote)] at inside
              cases inside
          | ok out' =>
              have after : (Except.ok out >>= fun out => out.step (.write results curTime)) =
                  .ok out' := wrote
              simp only [after, completes]
              obtain ⟨exact_, next⟩ := paced.writeMsg enough steady wrote
              have fresh : Fresh ⟨.ok out, log⟩ (.write results curTime) ↔
                  ∀ ref ∈ out.waiting out.toSendMsg results, out.underControl ref = false := by
                constructor
                · exact fun fresh => fresh out results curTime rfl rfl
                · rintro free _ _ _ same write
                  cases same
                  cases write
                  exact free
              rw [fresh]
              refine ⟨?_, fun free => .of_paced (next free)⟩
              rw [← exact_]
              constructor
              · exact fun bounded => bounded.queued out' rfl
              · refine fun once => ⟨spaced, fun out'' same => ?_⟩
                cases same
                exact once

theorem steady_cons {e : Outgoing.Event} {es : List Outgoing.Event}
    (steady : (clock :: (e :: es).flatMap Outgoing.Event.readings).Pairwise (· ≤ ·)) :
    (clock :: e.readings).Pairwise (· ≤ ·) ∧
      (e.clock clock :: es.flatMap Outgoing.Event.readings).Pairwise (· ≤ ·) := by
  rw [List.flatMap_cons, ← List.cons_append] at steady
  obtain ⟨here, later, between⟩ := List.pairwise_append.mp steady
  refine ⟨here, List.pairwise_cons.mpr ⟨between _ ?_, later⟩⟩
  cases e with
  | write results curTime => simp [Outgoing.Event.clock, Outgoing.Event.readings]
  | _ => exact List.mem_cons_self

theorem Inv.run (inv : transmitter.Inv resendCnt resendTime clock) (enough : 0 ≤ resendCnt)
    {es : List Outgoing.Event}
    (steady : (clock :: es.flatMap Outgoing.Event.readings).Pairwise (· ≤ ·)) :
    AllStates Transmitter.step (Bounded resendCnt resendTime) transmitter es ↔
      AllSteps Transmitter.step Fresh transmitter es := by
  induction es generalizing transmitter clock with
  | nil => exact iff_of_true inv.bounded trivial
  | cons e es ih =>
      obtain ⟨here, later⟩ := steady_cons steady
      obtain ⟨transmitter', first⟩ :
          ∃ transmitter', Transmitter.step transmitter e = .ok transmitter' := ⟨_, rfl⟩
      obtain ⟨exact_, keeps⟩ := inv.step enough here first
      simp only [AllStates, AllSteps, first, Except.ok.injEq, forall_eq']
      constructor
      · rintro ⟨_, states⟩
        have fresh := exact_.mp (states.first Transmitter.step)
        exact ⟨fresh, (ih (keeps fresh) later).mp states⟩
      · rintro ⟨fresh, steps⟩
        exact ⟨inv.bounded, (ih (keeps fresh) later).mpr steps⟩

end Transmitter

end Battleship
