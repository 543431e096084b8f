import Battleship.Outgoing

/-! Messages that are in two containers. `resend` queues a message that delivery
control goes on owning; a receipt, or the last attempt, deletes it, whether it is
queued or not. -/
namespace Battleship

open Runs

namespace Outgoing

/-- No deleted message is queued. -/
def Clean (out : Outgoing) : Prop := ∀ ref ∈ out.toSendMsg, out.objects ref ≠ none

theorem type_eq_none {out : Outgoing} {ref : MsgRef} :
    out.type ref = none ↔ out.objects ref = none := by
  simp [type]

structure Inv (out : Outgoing) : Prop where
  owned : ∀ item ∈ out.control, ∃ t, out.type item.msg = some t ∧ t ≠ .receipt
  apart : (out.control.map ListItem.msg).Nodup
  once : ∀ ref, out.type ref ≠ none → out.underControl ref = false → out.toSendMsg.count ref ≤ 1
  known : ∀ ref, out.type ref ≠ none → ref < out.nextRef
  queued : ∀ ref ∈ out.toSendMsg, ref < out.nextRef

/-- The messages at the head of the queue that are written completely. -/
def sent (out : Outgoing) : List MsgRef → List (Int × Int) → List MsgRef
  | [], _ => []
  | ref :: queue, results =>
      match out.type ref with
      | none => []
      | some t =>
          if (results.headD (-1, 0)).1 = getTypeDataSize t then
            ref :: sent out queue results.tail
          else []

def unsent (out : Outgoing) (queue : List MsgRef) (results : List (Int × Int)) : List MsgRef :=
  queue.drop (out.sent queue results).length

theorem sent_append_unsent (out : Outgoing) (queue : List MsgRef) (results : List (Int × Int)) :
    out.sent queue results ++ out.unsent queue results = queue := by
  unfold unsent
  fun_induction sent out queue results with
  | case1 => rfl
  | case2 => rfl
  | case3 ref queue results t type written ih => simpa using ih
  | case4 => rfl

theorem sent_congr {out out' : Outgoing} {queue : List MsgRef}
    (same : ∀ ref ∈ queue, out'.type ref = out.type ref) (results : List (Int × Int)) :
    out'.sent queue results = out.sent queue results := by
  induction queue generalizing results with
  | nil => rfl
  | cons ref queue ih =>
      have later := ih (fun other inside => same other (List.mem_cons_of_mem _ inside))
      simp only [sent, same ref List.mem_cons_self, later]

structure Ready (out : Outgoing) (queue : List MsgRef) : Prop where
  owned : ∀ item ∈ out.control, ∃ t, out.type item.msg = some t ∧ t ≠ .receipt
  apart : (out.control.map ListItem.msg).Nodup
  once : ∀ ref, out.type ref ≠ none → out.underControl ref = false → queue.count ref ≤ 1
  alive : ∀ ref ∈ queue, out.type ref ≠ none

/-- What the loop has done when `sent` is written and `rest` is left. -/
structure Wrote (out : Outgoing) (sent rest : List MsgRef) (out' : Outgoing) : Prop where
  queue : out'.toSendMsg.Perm rest
  nextRef : out'.nextRef = out.nextRef
  owned : ∀ item ∈ out'.control, ∃ t, out'.type item.msg = some t ∧ t ≠ .receipt
  apart : (out'.control.map ListItem.msg).Nodup
  kept : ∀ item ∈ out.control, ∃ item' ∈ out'.control, item'.msg = item.msg ∧
    item'.resendCnt = item.resendCnt - sent.count item.msg
  origin : ∀ item' ∈ out'.control, (∃ item ∈ out.control, item.msg = item'.msg ∧
      item'.resendCnt = item.resendCnt - sent.count item.msg) ∨
    (out.underControl item'.msg = false ∧ item'.msg ∈ sent ∧ item'.msg ∉ rest)
  types : ∀ ref, out'.type ref = out.type ref ∨
    (out'.type ref = none ∧ out.type ref ≠ none ∧ ref ∈ sent ∧ ref ∉ rest)

theorem Ready.uncontrolled {out : Outgoing} {queue : List MsgRef} (ready : out.Ready queue)
    {ref : MsgRef} (receipt : out.type ref = some .receipt) : out.underControl ref = false := by
  by_contra controlled
  obtain ⟨item, member, rfl⟩ := underControl_iff.mp (Bool.not_eq_false _ ▸ controlled)
  obtain ⟨t, type, other⟩ := ready.owned item member
  exact other (Option.some.inj (type.symm.trans receipt))

theorem Ready.alone {out : Outgoing} {ref : MsgRef} {queue : List MsgRef}
    (ready : out.Ready (ref :: queue)) (free : out.underControl ref = false) : ref ∉ queue := by
  have once := ready.once ref (ready.alive ref List.mem_cons_self) free
  rw [List.count_cons_self] at once
  exact List.count_eq_zero.mp (by omega)

theorem decrease_msgs (out : Outgoing) (ref : MsgRef) (now : Int) :
    (out.decrease ref now).control.map ListItem.msg = out.control.map ListItem.msg := by
  simp only [decrease, List.map_map]
  refine List.map_congr_left fun item _ => ?_
  simp only [Function.comp]
  split_ifs with same <;> simp [*]

theorem add_underControl (out : Outgoing) (ref other : MsgRef) (now : Int) :
    (out.add ref now).underControl other = (decide (ref = other) || out.underControl other) := rfl

/-- One turn of `decrease` for an item, and how often its message is still written. -/
theorem decreased_count (item : ListItem) {item₁ : ListItem} (ref : MsgRef) (now : Int)
    (decreased : item₁ = if item.msg = ref then ⟨ref, now, item.resendCnt - 1⟩ else item)
    (sent : List MsgRef) : item₁.msg = item.msg ∧
      item₁.resendCnt - sent.count item₁.msg = item.resendCnt - (ref :: sent).count item.msg := by
  split_ifs at decreased with same
  · subst decreased same
    refine ⟨rfl, ?_⟩
    rw [List.count_cons_self]
    push_cast
    ring
  · subst decreased
    exact ⟨rfl, by rw [List.count_cons_of_ne (Ne.symm same)]⟩

theorem underControl_mem {out : Outgoing} {ref : MsgRef} :
    out.underControl ref = true ↔ ref ∈ out.control.map ListItem.msg := by
  simp [underControl]

theorem written_ready {out : Outgoing} {ref : MsgRef} {queue : List MsgRef} {msg : Message}
    (ready : out.Ready (ref :: queue)) (type : out.type ref = some msg.type) (now : Int) :
    (out.written ref msg now).Ready queue ∧
      ∀ other ∈ queue, (out.written ref msg now).type other = out.type other := by
  have ⟨owned, apart, once, alive⟩ := ready
  have later (other : MsgRef) : queue.count other ≤ (ref :: queue).count other :=
    List.count_le_count_cons
  have inside {other : MsgRef} (member : other ∈ queue) := alive other (List.mem_cons_of_mem _ member)
  unfold written
  -- A receipt is deleted, a new message comes under control, another one is counted down.
  split_ifs with receipt free
  · have free := ready.uncontrolled (receipt ▸ type)
    have gone := ready.alone free
    have kept (other : MsgRef) (member : other ∈ queue) :
        (out.delete ref).type other = out.type other := by
      rw [delete_type, if_neg (by rintro rfl; exact gone member)]
    refine ⟨⟨fun item member => ?_, apart, fun other live unowned => ?_, fun other member => ?_⟩,
      kept⟩
    · obtain ⟨t, own, notReceipt⟩ := owned item member
      refine ⟨t, ?_, notReceipt⟩
      rw [delete_type, if_neg, own]
      intro same
      exact notReceipt (Option.some.inj (own.symm.trans (same ▸ receipt ▸ type)))
    · rw [delete_type] at live
      split_ifs at live with same
      · exact absurd rfl live
      · exact (later other).trans (once other live unowned)
    · rw [kept other member]
      exact inside member
  · have free : out.underControl ref = false := by simpa using free
    refine ⟨⟨fun item member => ?_, ?_, fun other live unowned => ?_, fun other => inside⟩,
      fun _ _ => rfl⟩
    · rcases List.mem_cons.mp member with rfl | old
      · exact ⟨msg.type, type, receipt⟩
      · exact owned item old
    · refine List.nodup_cons.mpr ⟨fun controlled => ?_, apart⟩
      cases (underControl_mem.mpr controlled).symm.trans free
    · rw [add_underControl, Bool.or_eq_false_iff] at unowned
      exact (later other).trans (once other live unowned.2)
  · refine ⟨⟨fun item member => ?_, ?_, fun other live unowned => ?_, fun other => inside⟩,
      fun _ _ => rfl⟩
    · have same : item.msg ∈ out.control.map ListItem.msg :=
        decrease_msgs out ref now ▸ List.mem_map_of_mem member
      obtain ⟨old, inside, msg_eq⟩ := List.mem_map.mp same
      exact msg_eq ▸ owned old inside
    · rwa [decrease_msgs]
    · refine (later other).trans (once other live ?_)
      rwa [← Bool.not_eq_true, underControl_mem, decrease_msgs, ← underControl_mem,
        Bool.not_eq_true] at unowned

theorem free_count {out : Outgoing} {ref : MsgRef} (free : out.underControl ref = false)
    {item : ListItem} (member : item ∈ out.control) (sent : List MsgRef) :
    (ref :: sent).count item.msg = sent.count item.msg := by
  refine List.count_cons_of_ne fun same => ?_
  have controlled := underControl_iff.mpr ⟨item, member, same.symm⟩
  cases controlled.symm.trans free

theorem written_wrote {out out' : Outgoing} {ref : MsgRef} {sent rest : List MsgRef}
    {msg : Message} (ready : out.Ready (ref :: (sent ++ rest)))
    (type : out.type ref = some msg.type) {now : Int}
    (wrote : (out.written ref msg now).Wrote sent rest out') :
    out.Wrote (ref :: sent) rest out' := by
  have ⟨queue, nextRef, owned, apart, kept, origin, types⟩ := wrote
  unfold written at *
  -- The three ways of `written_ready`, now for what has become of each item.
  split_ifs at * with receipt free
  · have free := ready.uncontrolled (receipt ▸ type)
    have gone := ready.alone free
    have others {item : ListItem} (member : item ∈ out.control) := free_count free member sent
    refine ⟨queue, nextRef, owned, apart, fun item member => ?_, fun item' member => ?_,
      fun other => ?_⟩
    · rw [others member]
      exact kept item member
    · rcases origin item' member with ⟨item, old, same, count⟩ | ⟨unowned, inside, left⟩
      · exact Or.inl ⟨item, old, same, by rw [others old]; exact count⟩
      · exact Or.inr ⟨unowned, List.mem_cons_of_mem _ inside, left⟩
    · by_cases same : other = ref
      · subst same
        -- The receipt is deleted at once and nothing brings it back.
        have dead : out'.type other = none := by
          rcases types other with kept | ⟨dead, _⟩
          · rw [kept, delete_type, if_pos rfl]
          · exact dead
        refine Or.inr ⟨dead, by simp [type], List.mem_cons_self, ?_⟩
        exact fun inside => gone (List.mem_append_right _ inside)
      · have own := types other
        rw [delete_type, if_neg same] at own
        rcases own with kept | ⟨dead, live, inside, left⟩
        · exact Or.inl kept
        · exact Or.inr ⟨dead, live, List.mem_cons_of_mem _ inside, left⟩
  · have free : out.underControl ref = false := by simpa using free
    have gone := ready.alone free
    have left : ref ∉ rest := fun inside => gone (List.mem_append_right _ inside)
    refine ⟨queue, nextRef, owned, apart, fun item member => ?_, fun item' member => ?_,
      fun other => ?_⟩
    · rw [free_count free member]
      exact kept item (List.mem_cons_of_mem _ member)
    · rcases origin item' member with ⟨item, old, same, count⟩ | ⟨unowned, inside, left⟩
      · rcases List.mem_cons.mp old with rfl | old
        · exact Or.inr ⟨same ▸ free, same ▸ List.mem_cons_self, same ▸ left⟩
        · exact Or.inl ⟨item, old, same, by rw [free_count free old]; exact count⟩
      · rw [add_underControl, Bool.or_eq_false_iff] at unowned
        exact Or.inr ⟨unowned.2, List.mem_cons_of_mem _ inside, left⟩
    · rcases types other with kept | ⟨dead, live, inside, left⟩
      · exact Or.inl kept
      · exact Or.inr ⟨dead, live, List.mem_cons_of_mem _ inside, left⟩
  · refine ⟨queue, nextRef, owned, apart, fun item member => ?_, fun item' member => ?_,
      fun other => ?_⟩
    · obtain ⟨same, count⟩ := decreased_count item ref now rfl sent
      obtain ⟨item', inside, same', count'⟩ := kept _ (List.mem_map_of_mem member)
      exact ⟨item', inside, same'.trans same, count'.trans count⟩
    · rcases origin item' member with ⟨item₁, old, same, count⟩ | ⟨unowned, inside, left⟩
      · obtain ⟨item, old, decreased⟩ := List.mem_map.mp old
        obtain ⟨same₁, count₁⟩ := decreased_count item ref now decreased.symm sent
        exact Or.inl ⟨item, old, same₁.symm.trans same, count.trans count₁⟩
      · refine Or.inr ⟨?_, List.mem_cons_of_mem _ inside, left⟩
        rwa [← Bool.not_eq_true, underControl_mem, decrease_msgs, ← underControl_mem,
          Bool.not_eq_true] at unowned
    · rcases types other with kept | ⟨dead, live, inside, left⟩
      · exact Or.inl kept
      · exact Or.inr ⟨dead, live, List.mem_cons_of_mem _ inside, left⟩

theorem Ready.number {out : Outgoing} {queue : List MsgRef} (ready : out.Ready queue)
    {ref : MsgRef} {msg : Message} (alive : out.objects ref = some msg) :
    (out.number ref msg).Ready queue := by
  have ⟨owned, apart, once, alive'⟩ := ready
  refine ⟨?_, ?_, ?_, ?_⟩ <;>
    simpa only [number_control, number_type out alive, underControl]

theorem Wrote.of_number {out out' : Outgoing} {ref : MsgRef} {sent rest : List MsgRef}
    {msg : Message} (alive : out.objects ref = some msg)
    (wrote : (out.number ref msg).Wrote sent rest out') : out.Wrote sent rest out' := by
  have ⟨queue, nextRef, owned, apart, kept, origin, types⟩ := wrote
  simp only [number_control, number_type out alive, number_nextRef, underControl] at *
  exact ⟨queue, nextRef, owned, apart, kept, origin, types⟩

theorem writeLoop_wrote {out : Outgoing} {queue : List MsgRef} (ready : out.Ready queue)
    (results : List (Int × Int)) : ∃ out', out.writeLoop queue results = .ok out' ∧
      out.Wrote (out.sent queue results) (out.unsent queue results) out' := by
  induction queue generalizing out results with
  | nil =>
      refine ⟨_, rfl, ⟨.refl _, rfl, ready.owned, ready.apart, fun item member => ?_,
        fun item member => ?_, fun ref => Or.inl rfl⟩⟩
      · exact ⟨item, member, rfl, by simp [sent]⟩
      · exact Or.inl ⟨item, member, rfl, by simp [sent]⟩
  | cons ref queue ih =>
      obtain ⟨msg, alive⟩ := Option.ne_none_iff_exists'.mp
        (mt type_eq_none.mpr (ready.alive ref List.mem_cons_self))
      have type : out.type ref = some msg.type := by simp [Outgoing.type, alive]
      have numbered := ready.number alive
      have type' : (out.number ref msg).type ref = some msg.type := by rw [number_type out alive, type]
      by_cases complete : (results.headD (-1, 0)).1 = getTypeDataSize msg.type
      · obtain ⟨ready', types⟩ := written_ready numbered type' (results.headD (-1, 0)).2
        obtain ⟨out', done, wrote⟩ := ih ready' results.tail
        have same := sent_congr (fun other inside => (types other inside).trans
          (congrFun (number_type out alive) other)) results.tail
        have now : out.sent (ref :: queue) results = ref :: out.sent queue results.tail := by
          rw [sent, type]
          exact if_pos complete
        have rest : out.unsent (ref :: queue) results = out.unsent queue results.tail := by
          simp [unsent, now]
        simp only [unsent, same] at wrote
        rw [← unsent] at wrote
        refine ⟨out', ?_, ?_⟩
        · rw [writeLoop, alive]
          exact (if_pos complete).trans done
        · rw [now, rest]
          refine Wrote.of_number alive (written_wrote ?_ type' wrote)
          rwa [sent_append_unsent]
      -- The write fails: the loop stops and puts the message back at the end of the queue.
      · have now : out.sent (ref :: queue) results = [] := by
          rw [sent, type]
          exact if_neg complete
        have stopped : out.writeLoop (ref :: queue) results =
            .ok { out.number ref msg with toSendMsg := queue ++ [ref] } := by
          rw [writeLoop, alive]
          exact if_neg complete
        refine ⟨_, stopped, ?_⟩
        simp only [unsent, now, List.length_nil, List.drop_zero]
        refine ⟨?_, by simp, numbered.owned, numbered.apart, fun item member => ?_,
          fun item member => ?_, fun other => Or.inl ?_⟩
        · exact List.perm_append_singleton ref queue
        · exact ⟨item, by simpa using member, rfl, by simp⟩
        · exact Or.inl ⟨item, by simpa using member, rfl, by simp⟩
        · exact congrFun (number_type out alive) other

/-- The delivery control deletes what the chain has no attempts left for. -/
theorem rmAllExhausted_spec (out : Outgoing) (chain : List ListItem) :
    (out.rmAllExhausted chain).toSendMsg = out.toSendMsg ∧
      (out.rmAllExhausted chain).nextRef = out.nextRef ∧
      (∀ item, item ∈ (out.rmAllExhausted chain).control ↔ item ∈ out.control ∧
        ∀ other ∈ chain, other.resendCnt ≤ 0 → other.msg ≠ item.msg) ∧
      (out.rmAllExhausted chain).control.Sublist out.control ∧
      ∀ ref, (out.rmAllExhausted chain).type ref =
        if ∃ other ∈ chain, other.resendCnt ≤ 0 ∧ other.msg = ref then none else out.type ref := by
  induction chain generalizing out with
  | nil => simp [rmAllExhausted]
  | cons item chain ih =>
      simp only [rmAllExhausted]
      by_cases exhausted : item.resendCnt ≤ 0
      · rw [if_pos exhausted]
        obtain ⟨queue, next, members, sub, types⟩ := ih (out.removeMsg item)
        refine ⟨queue, next, fun other => ?_, sub.trans List.filter_sublist, fun ref => ?_⟩
        · rw [members other]
          simp only [removeMsg, List.mem_filter, decide_eq_true_eq, List.forall_mem_cons]
          exact ⟨fun ⟨⟨member, ne⟩, rest⟩ => ⟨member, fun _ => Ne.symm ne, rest⟩,
            fun ⟨member, ne, rest⟩ => ⟨⟨member, (ne exhausted).symm⟩, rest⟩⟩
        · rw [types ref]
          have gone : (out.removeMsg item).type ref = if ref = item.msg then none else out.type ref :=
            delete_type out item.msg ref
          rw [gone]
          by_cases same : ref = item.msg
          · simp [same, exhausted]
          · simp [same, exhausted, Ne.symm same]
      · rw [if_neg exhausted]
        obtain ⟨queue, next, members, sub, types⟩ := ih out
        refine ⟨queue, next, fun other => ?_, sub, fun ref => ?_⟩
        · rw [members other]
          simp [exhausted]
        · rw [types ref]
          simp [exhausted]

theorem apart_eq {out : Outgoing} (apart : (out.control.map ListItem.msg).Nodup)
    {item other : ListItem} (left : item ∈ out.control) (right : other ∈ out.control)
    (same : item.msg = other.msg) : item = other :=
  List.inj_on_of_nodup_map apart left right same

structure Resent (out : Outgoing) (resent : List MsgRef) (out' : Outgoing) : Prop where
  queue : out'.toSendMsg = out.toSendMsg ++ resent
  nextRef : out'.nextRef = out.nextRef
  control : ∀ item, item ∈ out'.control ↔ item ∈ out.control ∧ 0 < item.resendCnt
  apart : (out'.control.map ListItem.msg).Nodup
  dead : ∀ item ∈ out.control, item.resendCnt ≤ 0 → out'.type item.msg = none
  types : ∀ ref, out'.type ref = out.type ref ∨
    ∃ item ∈ out.control, item.resendCnt ≤ 0 ∧ item.msg = ref ∧ out'.type ref = none
  again : ∀ ref ∈ resent, ∃ item ∈ out.control, 0 < item.resendCnt ∧ item.msg = ref

theorem resend_resent {out : Outgoing} (apart : (out.control.map ListItem.msg).Nodup)
    (curTime : Int) : ∃ resent, out.Resent resent (out.resend curTime) := by
  let resent := (out.control.filter fun item => out.needResend item curTime).map ListItem.msg
  let queued : Outgoing := { out with toSendMsg := out.toSendMsg ++ resent }
  obtain ⟨queue, next, members, sub, types⟩ := rmAllExhausted_spec queued out.control
  refine ⟨resent, queue, next, fun item => ?_, apart.sublist (sub.map _), fun item member spent => ?_,
    fun ref => ?_, fun ref inside => ?_⟩
  · refine (members item).trans (and_congr_right fun member => ?_)
    constructor
    · intro others
      by_contra spent
      exact others item member (not_lt.mp spent) rfl
    · rintro live other inside spent same
      obtain rfl := apart_eq apart inside member same
      omega
  · exact (types item.msg).trans (if_pos ⟨item, member, spent, rfl⟩)
  · by_cases spent : ∃ item ∈ out.control, item.resendCnt ≤ 0 ∧ item.msg = ref
    · obtain ⟨item, member, cnt, same⟩ := spent
      exact Or.inr ⟨item, member, cnt, same, (types ref).trans (if_pos ⟨item, member, cnt, same⟩)⟩
    · exact Or.inl ((types ref).trans (if_neg spent))
  · obtain ⟨item, member, rfl⟩ := List.mem_map.mp inside
    obtain ⟨member, need⟩ := List.mem_filter.mp member
    simp only [needResend, decide_eq_true_eq] at need
    exact ⟨item, member, need.1, rfl⟩

theorem init_inv (resendCnt resendTime : Int) : (init resendCnt resendTime).Inv :=
  ⟨nofun, List.nodup_nil, fun _ _ _ => by simp [init], fun _ live => absurd rfl live, nofun⟩

theorem Inv.ready {out : Outgoing} (inv : out.Inv) (clean : out.Clean) :
    out.Ready out.toSendMsg :=
  ⟨inv.owned, inv.apart, inv.once, fun ref inside => mt type_eq_none.mp (clean ref inside)⟩

/-- What one call of `write_msg` does, between its loop and `resend`. -/
theorem writeMsg_does {out : Outgoing} (inv : out.Inv) (clean : out.Clean)
    (results : List (Int × Int)) (curTime : Int) : ∃ out₁ resent out',
      out.writeMsg results curTime = .ok out' ∧
      out.Wrote (out.sent out.toSendMsg results) (out.unsent out.toSendMsg results) out₁ ∧
      out₁.Resent resent out' := by
  obtain ⟨out₁, done, wrote⟩ := writeLoop_wrote (inv.ready clean) results
  obtain ⟨resent, again⟩ := resend_resent wrote.apart curTime
  exact ⟨out₁, resent, _, by simp [writeMsg, done, Bind.bind, Except.bind], wrote, again⟩

theorem Wrote.controlled {out out₁ : Outgoing} {sent rest : List MsgRef}
    (wrote : out.Wrote sent rest out₁) {ref : MsgRef} (free : out₁.underControl ref = false) :
    out.underControl ref = false := by
  by_contra controlled
  obtain ⟨item, member, rfl⟩ := underControl_iff.mp (Bool.not_eq_false _ ▸ controlled)
  obtain ⟨item', inside, same, _⟩ := wrote.kept item member
  cases (underControl_iff.mpr ⟨item', inside, same⟩).symm.trans free

theorem Wrote.live {out out₁ : Outgoing} {sent rest : List MsgRef}
    (wrote : out.Wrote sent rest out₁) {ref : MsgRef} (live : out₁.type ref ≠ none) :
    out.type ref ≠ none := by
  rcases wrote.types ref with kept | ⟨dead, _⟩
  · exact kept ▸ live
  · exact absurd dead live

theorem Resent.live {out₁ out' : Outgoing} {resent : List MsgRef}
    (again : out₁.Resent resent out') {ref : MsgRef} (live : out'.type ref ≠ none) :
    out'.type ref = out₁.type ref := by
  rcases again.types ref with kept | ⟨_, _, _, _, dead⟩
  · exact kept
  · exact absurd dead live

theorem Resent.spared {out₁ out' : Outgoing} {resent : List MsgRef}
    (again : out₁.Resent resent out') (apart : (out₁.control.map ListItem.msg).Nodup)
    {item : ListItem} (member : item ∈ out₁.control) (left : 0 < item.resendCnt) :
    out'.type item.msg = out₁.type item.msg := by
  rcases again.types item.msg with kept | ⟨other, inside, spent, same, _⟩
  · exact kept
  · obtain rfl := apart_eq apart inside member same
    omega

theorem writeMsg_inv {out out₁ out' : Outgoing} (inv : out.Inv) {resent : List MsgRef}
    {results : List (Int × Int)}
    (wrote : out.Wrote (out.sent out.toSendMsg results) (out.unsent out.toSendMsg results) out₁)
    (again : out₁.Resent resent out') : out'.Inv := by
  have whole := out.sent_append_unsent out.toSendMsg results
  have left (ref : MsgRef) : (out.unsent out.toSendMsg results).count ref ≤
      out.toSendMsg.count ref := by
    rw [← whole, List.count_append, whole]
    exact Nat.le_add_left _ _
  have next : out'.nextRef = out.nextRef := again.nextRef.trans wrote.nextRef
  refine ⟨fun item member => ?_, again.apart, fun ref live free => ?_, fun ref live => ?_,
    fun ref inside => ?_⟩
  · obtain ⟨inside, cnt⟩ := (again.control item).mp member
    rw [again.spared wrote.apart inside cnt]
    exact wrote.owned item inside
  · have type := again.live live
    have live₁ : out₁.type ref ≠ none := type ▸ live
    have free₁ : out₁.underControl ref = false := by
      by_contra controlled
      obtain ⟨item, member, rfl⟩ := underControl_iff.mp (Bool.not_eq_false _ ▸ controlled)
      by_cases cnt : 0 < item.resendCnt
      · have stays := underControl_iff.mpr ⟨item, (again.control item).mpr ⟨member, cnt⟩, rfl⟩
        cases stays.symm.trans free
      · exact live (again.dead item member (not_lt.mp cnt))
    have once := inv.once ref (wrote.live live₁) (wrote.controlled free₁)
    -- `resend` queues only what is under control.
    have never : resent.count ref = 0 := by
      refine List.count_eq_zero.mpr fun inside => ?_
      obtain ⟨item, member, _, same⟩ := again.again ref inside
      cases (underControl_iff.mpr ⟨item, member, same⟩).symm.trans free₁
    rw [again.queue, List.count_append, never, wrote.queue.count_eq]
    exact (left ref).trans once
  · rw [next]
    exact inv.known ref (wrote.live (again.live live ▸ live))
  · rw [next]
    rw [again.queue, List.mem_append] at inside
    rcases inside with old | resent
    · have inside : ref ∈ out.toSendMsg := by
        rw [← whole]
        exact List.mem_append_right _ (wrote.queue.mem_iff.mp old)
      exact inv.queued ref inside
    · obtain ⟨item, member, _, rfl⟩ := again.again ref resent
      obtain ⟨t, type, _⟩ := wrote.owned item member
      exact inv.known _ (wrote.live (by simp [type]))

/-- The queue stays clean if every controlled message that is left in it has more
attempts left than it has just been written. -/
theorem writeMsg_clean_iff {out out₁ out' : Outgoing} (clean : out.Clean)
    {resent : List MsgRef} {results : List (Int × Int)}
    (wrote : out.Wrote (out.sent out.toSendMsg results) (out.unsent out.toSendMsg results) out₁)
    (again : out₁.Resent resent out') : out'.Clean ↔
      ∀ item ∈ out.control, item.msg ∈ out.unsent out.toSendMsg results →
        ((out.sent out.toSendMsg results).count item.msg : Int) < item.resendCnt := by
  have whole := out.sent_append_unsent out.toSendMsg results
  constructor
  · intro clean' item member inside
    by_contra spent
    obtain ⟨item', member', same, cnt⟩ := wrote.kept item member
    -- An item without attempts left is removed, and its message deleted while it is queued.
    have dead := again.dead item' member' (by omega)
    have queued : item.msg ∈ out'.toSendMsg := by
      rw [again.queue]
      exact List.mem_append_left _ (wrote.queue.mem_iff.mpr inside)
    exact clean' _ queued (type_eq_none.mp (same ▸ dead))
  · intro spared ref inside
    rw [again.queue, List.mem_append] at inside
    refine mt type_eq_none.mpr ?_
    rcases inside with old | more
    · have inside := wrote.queue.mem_iff.mp old
      have queued : ref ∈ out.toSendMsg := whole ▸ List.mem_append_right _ inside
      have live : out₁.type ref ≠ none := by
        rcases wrote.types ref with kept | ⟨_, _, _, written⟩
        · exact kept ▸ mt type_eq_none.mp (clean ref queued)
        · exact absurd inside written
      rcases again.types ref with kept | ⟨item', member', spent, rfl, _⟩
      · exact kept ▸ live
      · rcases wrote.origin item' member' with ⟨item, member, same, cnt⟩ | ⟨_, _, written⟩
        · have := spared item member (same ▸ inside)
          omega
        · exact absurd inside written
    · obtain ⟨item, member, cnt, rfl⟩ := again.again ref more
      obtain ⟨t, type, _⟩ := wrote.owned item member
      rw [again.spared wrote.apart member cnt, type]
      nofun

theorem find_total {out : Outgoing} (id : Int64) {chain : List ListItem}
    (alive : ∀ item ∈ chain, out.type item.msg ≠ none) :
    out.find id chain = .ok (chain.find? fun item =>
      (out.objects item.msg).any fun msg => msg.id = id) := by
  induction chain with
  | nil => rfl
  | cons item chain ih =>
      obtain ⟨msg, object⟩ := Option.ne_none_iff_exists'.mp
        (mt type_eq_none.mpr (alive item List.mem_cons_self))
      rw [find, object, List.find?_cons, object]
      have rest := ih fun other inside => alive other (List.mem_cons_of_mem _ inside)
      by_cases hit : msg.id = id
      · simp [hit]
      · simp [hit, rest]

def named (out : Outgoing) (reqMsgId : Int64) : Option ListItem :=
  out.control.find? fun item => (out.objects item.msg).any fun msg => msg.id = reqMsgId

theorem processCheck_eq {out : Outgoing} (inv : out.Inv) (reqMsgId : Int64) :
    out.processCheck reqMsgId = .ok (match out.named reqMsgId with
      | none => out
      | some item => out.removeMsg item) := by
  have alive (item : ListItem) (member : item ∈ out.control) : out.type item.msg ≠ none := by
    obtain ⟨t, type, _⟩ := inv.owned item member
    simp [type]
  unfold processCheck named
  rw [find_total reqMsgId alive]
  cases out.control.find? fun item => (out.objects item.msg).any fun msg => msg.id = reqMsgId <;>
    rfl

theorem removeMsg_type (out : Outgoing) (item : ListItem) (ref : MsgRef) :
    (out.removeMsg item).type ref = if ref = item.msg then none else out.type ref :=
  delete_type out item.msg ref

theorem removeMsg_inv {out : Outgoing} (inv : out.Inv) (item : ListItem) :
    (out.removeMsg item).Inv := by
  have ⟨owned, apart, once, known, queued⟩ := inv
  refine ⟨fun other member => ?_, apart.sublist (List.filter_sublist.map _),
    fun ref live free => ?_, fun ref live => ?_, queued⟩
  · obtain ⟨inside, ne⟩ := List.mem_filter.mp member
    rw [removeMsg_type, if_neg (by simpa using ne)]
    exact owned other inside
  · rw [removeMsg_type] at live
    split_ifs at live with same
    · exact absurd rfl live
    · refine once ref live ?_
      by_contra controlled
      obtain ⟨other, member, rfl⟩ := underControl_iff.mp (Bool.not_eq_false _ ▸ controlled)
      have stays : (out.removeMsg item).underControl other.msg = true :=
        underControl_iff.mpr ⟨other, List.mem_filter.mpr ⟨member, by simpa using same⟩, rfl⟩
      cases stays.symm.trans free
  · rw [removeMsg_type] at live
    split_ifs at live
    · exact absurd rfl live
    · exact known ref live

theorem removeMsg_clean_iff {out : Outgoing} (clean : out.Clean) (item : ListItem) :
    (out.removeMsg item).Clean ↔ item.msg ∉ out.toSendMsg := by
  constructor
  · intro clean' inside
    exact clean' item.msg inside (type_eq_none.mp (by simp [removeMsg_type]))
  · intro absent ref inside
    refine mt type_eq_none.mpr ?_
    rw [removeMsg_type, if_neg (by rintro rfl; exact absent inside)]
    exact mt type_eq_none.mp (clean ref inside)

theorem sendMsg_type (out : Outgoing) (msg : Message) (ref : MsgRef) :
    (out.sendMsg msg).type ref = if ref = out.nextRef then some msg.type else out.type ref := by
  by_cases same : ref = out.nextRef <;> simp [type, sendMsg, same]

theorem sendMsg_inv {out : Outgoing} (inv : out.Inv) (msg : Message) : (out.sendMsg msg).Inv := by
  have ⟨owned, apart, once, known, queued⟩ := inv
  have old {ref : MsgRef} (lt : ref < out.nextRef) : (out.sendMsg msg).type ref = out.type ref := by
    rw [sendMsg_type, if_neg (Nat.ne_of_lt lt)]
  refine ⟨fun item member => ?_, apart, fun ref live free => ?_, fun ref live => ?_,
    fun ref inside => ?_⟩
  · obtain ⟨t, type, other⟩ := owned item member
    exact ⟨t, (old (known _ (by simp [type]))).trans type, other⟩
  · by_cases same : ref = out.nextRef
    · have absent : out.toSendMsg.count ref = 0 :=
        List.count_eq_zero.mpr fun inside => Nat.ne_of_lt (queued ref inside) same
      subst same
      simp [sendMsg, absent]
    · rw [sendMsg_type, if_neg same] at live
      have before := once ref live free
      simpa [sendMsg, List.count_append, Ne.symm same] using before
  · rw [sendMsg_type] at live
    split_ifs at live with same
    · simp [sendMsg, same]
    · exact Nat.lt_succ_of_lt (known ref live)
  · rcases List.mem_append.mp inside with earlier | new
    · exact Nat.lt_succ_of_lt (queued ref earlier)
    · obtain rfl := List.mem_singleton.mp new
      exact Nat.lt_succ_self _

theorem sendMsg_clean {out : Outgoing} (inv : out.Inv) (clean : out.Clean) (msg : Message) :
    (out.sendMsg msg).Clean := by
  intro ref inside
  refine mt type_eq_none.mpr ?_
  rw [sendMsg_type]
  rcases List.mem_append.mp inside with earlier | new
  · have lt := inv.queued ref earlier
    rw [if_neg (Nat.ne_of_lt lt)]
    exact mt type_eq_none.mp (clean ref earlier)
  · rw [if_pos (List.mem_singleton.mp new)]
    nofun

/-- The step deletes nothing that is queued: a receipt names a message that is not, and
after a `write_msg` every controlled message that is left in the queue has attempts left. -/
def Spared (out : Outgoing) : Event → Prop
  | .send _ => True
  | .write results _ => ∀ item ∈ out.control, item.msg ∈ out.unsent out.toSendMsg results →
      ((out.sent out.toSendMsg results).count item.msg : Int) < item.resendCnt
  | .receipt reqMsgId => ∀ item, out.named reqMsgId = some item → item.msg ∉ out.toSendMsg
  | .others _ => True

/-- A step from a clean state does not fail, keeps the invariant, and leaves the queue
clean exactly if it is a sparing one. -/
theorem step_does {out : Outgoing} (inv : out.Inv) (clean : out.Clean) (e : Event) :
    ∃ out', out.step e = .ok out' ∧ out'.Inv ∧ (out'.Clean ↔ out.Spared e) := by
  cases e with
  | send msg =>
      exact ⟨_, rfl, sendMsg_inv inv msg, iff_of_true (sendMsg_clean inv clean msg) trivial⟩
  | write results curTime =>
      obtain ⟨out₁, resent, out', done, wrote, again⟩ := writeMsg_does inv clean results curTime
      exact ⟨out', done, writeMsg_inv inv wrote again, writeMsg_clean_iff clean wrote again⟩
  | receipt reqMsgId =>
      refine ⟨_, processCheck_eq inv reqMsgId, ?_⟩
      simp only [Spared]
      cases found : out.named reqMsgId with
      | none => exact ⟨inv, iff_of_true clean fun item other => by cases other⟩
      | some item =>
          refine ⟨removeMsg_inv inv item, (removeMsg_clean_iff clean item).trans ?_⟩
          simp only [Option.some.injEq, forall_eq']
  | others taken =>
      have ⟨owned, apart, once, known, queued⟩ := inv
      exact ⟨_, rfl, ⟨owned, apart, once, known, queued⟩, iff_of_true clean trivial⟩

end Outgoing

/-- In every run, no message that delivery control has deleted is ever queued, and
none is taken from the queue, exactly if every step is a sparing one. -/
theorem deleted_never_queued_iff (resendCnt resendTime : Int) (es : List Outgoing.Event) :
    ((∃ out, Outgoing.run (Outgoing.init resendCnt resendTime) es = .ok out) ∧
        AllStates Outgoing.step Outgoing.Clean (Outgoing.init resendCnt resendTime) es) ↔
      AllSteps Outgoing.step Outgoing.Spared (Outgoing.init resendCnt resendTime) es := by
  have start := Outgoing.init_inv resendCnt resendTime
  have clean : (Outgoing.init resendCnt resendTime).Clean := nofun
  have does {out out' : Outgoing} {e : Outgoing.Event} (inv : out.Inv) (clean : out.Clean)
      (done : out.step e = .ok out') : out'.Inv ∧ (out'.Clean ↔ out.Spared e) := by
    obtain ⟨_, same, facts⟩ := Outgoing.step_does inv clean e
    obtain rfl := Except.ok.inj (done.symm.trans same)
    exact facts
  have keeps (out : Outgoing) (e : Outgoing.Event) (out' : Outgoing) (inv : out.Inv)
      (clean : out.Clean) (done : out.step e = .ok out') : out'.Inv := (does inv clean done).1
  have exact_ (out : Outgoing) (e : Outgoing.Event) (out' : Outgoing) (inv : out.Inv)
      (clean : out.Clean) (done : out.step e = .ok out') : out'.Clean ↔ out.Spared e :=
    (does inv clean done).2
  constructor
  · rintro ⟨⟨out, done⟩, states⟩
    exact (allStates_iff_allSteps Outgoing.step keeps exact_ start clean done).mp states
  · intro steps
    have total (out : Outgoing) (e : Outgoing.Event) (inv : out.Inv) (clean : out.Clean) :
        ∃ out', out.step e = .ok out' := by
      obtain ⟨out', done, _⟩ := Outgoing.step_does inv clean e
      exact ⟨out', done⟩
    obtain ⟨out, done⟩ := run_of_allSteps Outgoing.step keeps exact_ total start clean steps
    exact ⟨⟨out, done⟩,
      (allStates_iff_allSteps Outgoing.step keeps exact_ start clean done).mpr steps⟩

def lateReceipt : List Outgoing.Event :=
  [.send (Message.new (.gameState 1)), .write [(17, 0)] 0,
    .send (Message.new (.gameState 2)), .write [(17, 11)] 11, .receipt 1]

theorem deleted_while_queued : ¬ ∀ es, (∃ out, Outgoing.run (Outgoing.init 3 10) es = .ok out) ∧
    AllStates Outgoing.step Outgoing.Clean (Outgoing.init 3 10) es := by
  intro always
  obtain ⟨⟨out, done⟩, states⟩ := always lateReceipt
  have clean := AllStates.last Outgoing.step states done
  obtain rfl : out = (Outgoing.run (Outgoing.init 3 10) lateReceipt).toOption.getD
      (Outgoing.init 3 10) := by simp [done, Except.toOption]
  revert clean
  unfold Outgoing.Clean
  decide +kernel

end Battleship
