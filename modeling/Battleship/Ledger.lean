import Battleship.Mail

/-! The outgoing messages of one side beside the messages it was handed and those its socket has
taken: none is deleted that was not written, and a number names one message for good. -/
namespace Battleship

open Runs

namespace Outgoing

/-- `handed` are the messages given to `send_msg`, in order, and `log` is what was written. -/
structure Ledger (out : Outgoing) (queue : List MsgRef) (log : List Transmission)
    (handed : List Message) : Prop where
  count : out.nextRef = handed.length
  object : ∀ ref msg, out.objects ref = some msg →
    ∃ made, handed[ref]? = some made ∧ msg.body = made.body
  logged : ∀ sent ∈ log, ∃ made, handed[sent.ref]? = some made ∧ sent.msg.body = made.body
  kept : ∀ ref < out.nextRef, (∃ sent ∈ log, sent.ref = ref) ∨
    ref ∈ queue ∧ out.objects ref ≠ none
  controlled : ∀ item ∈ out.control, ∃ sent ∈ log, sent.ref = item.msg

section Ledger

variable {out out' : Outgoing} {queue queue' : List MsgRef} {log : List Transmission}
  {handed : List Message}

theorem init_ledger (resendCnt resendTime : Int) : (init resendCnt resendTime).Ledger [] [] [] := by
  constructor
  · rfl
  · exact fun ref msg object => nomatch object
  · exact fun sent member => absurd member List.not_mem_nil
  · exact fun ref below => absurd below (Nat.not_lt_zero ref)
  · exact fun item member => absurd member List.not_mem_nil

/-- Messages that were written may be deleted, and the queue may grow. -/
theorem Ledger.fewer (ledger : out.Ledger queue log handed) (nextRef : out'.nextRef = out.nextRef)
    (objects : ∀ ref, out'.objects ref = out.objects ref ∨
      out'.objects ref = none ∧ ∃ sent ∈ log, sent.ref = ref)
    (control : ∀ item ∈ out'.control, (∃ old ∈ out.control, old.msg = item.msg) ∨
      ∃ sent ∈ log, sent.ref = item.msg)
    (more : ∀ ref ∈ queue, ref ∈ queue') : out'.Ledger queue' log handed := by
  obtain ⟨count, object, logged, kept, controlled⟩ := ledger
  constructor
  · rw [nextRef, count]
  · intro ref msg live
    rcases objects ref with same | ⟨dead, _⟩
    · exact object ref msg (same ▸ live)
    · cases dead.symm.trans live
  · exact logged
  · intro ref below
    rw [nextRef] at below
    rcases objects ref with same | ⟨_, written⟩
    · rw [same]
      exact (kept ref below).imp_right fun waits => ⟨more ref waits.1, waits.2⟩
    · exact .inl written
  · intro item member
    rcases control item member with ⟨old, inside, same⟩ | written
    · rw [← same]
      exact controlled old inside
    · exact written

theorem Ledger.congr (ledger : out.Ledger queue log handed) (nextRef : out'.nextRef = out.nextRef)
    (objects : out'.objects = out.objects) (control : out'.control = out.control) :
    out'.Ledger queue log handed :=
  ledger.fewer nextRef (fun _ => .inl (congrFun objects _))
    (fun item member => .inl ⟨item, control ▸ member, rfl⟩) fun _ waits => waits

theorem Ledger.sendMsg (ledger : out.Ledger queue log handed) (msg : Message) :
    (out.sendMsg msg).Ledger (queue ++ [out.nextRef]) log (handed ++ [msg]) := by
  obtain ⟨count, object, logged, kept, controlled⟩ := ledger
  have here : (handed ++ [msg])[out.nextRef]? = some msg := by
    rw [count, List.getElem?_concat_length]
  have before {ref : MsgRef} {made : Message} (known : handed[ref]? = some made) :
      (handed ++ [msg])[ref]? = some made := by
    obtain ⟨small, _⟩ := List.getElem?_eq_some_iff.mp known
    rwa [List.getElem?_append_left small]
  constructor
  · rw [List.length_append, ← count]
    rfl
  · intro ref msg' live
    by_cases new : ref = out.nextRef
    · subst new
      have same : msg = msg' := by simpa [Outgoing.sendMsg] using live
      exact ⟨msg, here, by rw [same]⟩
    · have old : out.objects ref = some msg' := by
        simpa [Outgoing.sendMsg, Function.update_of_ne new] using live
      obtain ⟨made, known, body⟩ := object ref msg' old
      exact ⟨made, before known, body⟩
  · intro sent member
    obtain ⟨made, known, body⟩ := logged sent member
    exact ⟨made, before known, body⟩
  · intro ref below
    by_cases new : ref = out.nextRef
    · subst new
      refine .inr ⟨List.mem_append_right _ (List.mem_singleton_self _), ?_⟩
      simp [Outgoing.sendMsg]
    · have old : (out.sendMsg msg).objects ref = out.objects ref := Function.update_of_ne new ..
      rw [old]
      have below' : ref < out.nextRef := Nat.lt_of_le_of_ne (Nat.le_of_lt_succ below) new
      exact (kept ref below').imp_right fun waits => ⟨List.mem_append_left _ waits.1, waits.2⟩
  · exact controlled

theorem number_eq (out : Outgoing) {ref : MsgRef} {msg : Message}
    (alive : out.objects ref = some msg) :
    (out.number ref msg).objects = Function.update out.objects ref (some (out.numbered msg)) := by
  unfold number numbered
  split_ifs
  · rfl
  · rw [← alive, Function.update_eq_self]

theorem numbered_body (out : Outgoing) (msg : Message) : (out.numbered msg).body = msg.body := by
  unfold numbered
  split_ifs <;> rfl

theorem Ledger.number {ref : MsgRef} (ledger : out.Ledger queue log handed) {msg : Message}
    (alive : out.objects ref = some msg) : (out.number ref msg).Ledger queue log handed := by
  obtain ⟨count, object, logged, kept, controlled⟩ := ledger
  constructor
  · rw [number_nextRef, count]
  · intro other msg' live
    rw [number_eq out alive] at live
    by_cases same : other = ref
    · subst same
      rw [Function.update_self] at live
      obtain rfl := Option.some.inj live
      rw [numbered_body]
      exact object other msg alive
    · rw [Function.update_of_ne same] at live
      exact object other msg' live
  · exact logged
  · intro other below
    rw [number_nextRef] at below
    refine (kept other below).imp_right fun waits => ⟨waits.1, ?_⟩
    rw [number_eq out alive]
    by_cases same : other = ref
    · subst same
      rw [Function.update_self]
      exact Option.some_ne_none _
    · rw [Function.update_of_ne same]
      exact waits.2
  · rw [number_control]
    exact controlled

theorem Ledger.noted {ref : MsgRef} (ledger : out.Ledger (ref :: queue) log handed)
    {msg : Message} (alive : out.objects ref = some msg) (size : Nat) :
    out.Ledger queue (log ++ [⟨ref, msg, size⟩]) handed := by
  obtain ⟨count, object, logged, kept, controlled⟩ := ledger
  have more {other : MsgRef} : (∃ sent ∈ log, sent.ref = other) →
      ∃ sent ∈ log ++ [⟨ref, msg, size⟩], sent.ref = other :=
    fun ⟨sent, member, same⟩ => ⟨sent, List.mem_append_left _ member, same⟩
  constructor
  · exact count
  · exact object
  · intro sent member
    rcases List.mem_append.mp member with old | new
    · exact logged sent old
    · obtain rfl := List.mem_singleton.mp new
      exact object ref msg alive
  · intro other below
    rcases kept other below with written | ⟨waits, live⟩
    · exact .inl (more written)
    · rcases List.mem_cons.mp waits with rfl | behind
      · exact .inl ⟨_, List.mem_append_right _ (List.mem_singleton_self _), rfl⟩
      · exact .inr ⟨behind, live⟩
  · exact fun item member => more (controlled item member)

/-- One turn of the loop of `write_msg`, when the message is written completely. -/
theorem Ledger.write {ref : MsgRef} (ledger : out.Ledger (ref :: queue) log handed)
    {msg : Message} (alive : out.objects ref = some msg) (now : Int) (size : Nat) :
    ((out.number ref msg).written ref msg now).Ledger queue
      (log ++ [⟨ref, out.numbered msg, size⟩]) handed := by
  have here : (out.number ref msg).objects ref = some (out.numbered msg) := by
    rw [number_eq out alive, Function.update_self]
  refine ((ledger.number alive).noted here size).fewer (written_nextRef ..) (fun other => ?_)
    (fun item member => ?_) fun _ waits => waits
  · unfold written
    split_ifs
    · by_cases same : other = ref
      · subst same
        exact .inr ⟨Function.update_self .., _,
          List.mem_append_right _ (List.mem_singleton_self _), rfl⟩
      · exact .inl (Function.update_of_ne same ..)
    · exact .inl rfl
    · exact .inl rfl
  · refine (written_control member).imp_right fun same => ?_
    exact ⟨_, List.mem_append_right _ (List.mem_singleton_self _), same.symm⟩

theorem Ledger.writeLoop (ledger : out.Ledger queue log handed) {results : List (Int × Int)}
    (done : out.writeLoop queue results = .ok out') :
    out'.Ledger out'.toSendMsg (log ++ out.transmissions queue results) handed := by
  induction queue generalizing out log results with
  | nil =>
      cases done
      rw [transmissions, List.append_nil]
      exact ledger.fewer rfl (fun _ => .inl rfl) (fun item member => .inl ⟨item, member, rfl⟩)
        fun ref member => absurd member List.not_mem_nil
  | cons ref queue ih =>
      rw [Outgoing.writeLoop] at done
      rw [transmissions]
      cases alive : out.objects ref with
      | none =>
          rw [alive] at done
          cases done
      | some msg =>
          rw [alive] at done
          have here : (out.number ref msg).objects ref = some (out.numbered msg) := by
            rw [number_eq out alive, Function.update_self]
          by_cases complete : (results.headD (-1, 0)).1 = getTypeDataSize msg.type
          · simp only [complete, ↓reduceIte] at done ⊢
            rw [← List.singleton_append, ← List.append_assoc]
            exact ih (ledger.write alive _ _) done
          · simp only [complete, ↓reduceIte] at done ⊢
            cases done
            -- the message is queued again, whether a part of it was written or not
            split_ifs with nothing
            · rw [List.append_nil]
              refine (ledger.number alive).fewer rfl (fun _ => .inl rfl)
                (fun item member => .inl ⟨item, member, rfl⟩) fun other member => ?_
              rcases List.mem_cons.mp member with rfl | behind
              · exact List.mem_append_right _ (List.mem_singleton_self _)
              · exact List.mem_append_left _ behind
            · exact ((ledger.number alive).noted here _).fewer rfl (fun _ => .inl rfl)
                (fun item member => .inl ⟨item, member, rfl⟩)
                fun other member => List.mem_append_left _ member

theorem Ledger.delete (ledger : out.Ledger queue log handed) {item : ListItem}
    (held : ∃ sent ∈ log, sent.ref = item.msg) :
    (out.removeMsg item).Ledger queue log handed := by
  refine ledger.fewer rfl (fun ref => ?_) (fun other member => ?_) fun _ waits => waits
  · by_cases same : ref = item.msg
    · subst same
      exact .inr ⟨Function.update_self .., held⟩
    · exact .inl (Function.update_of_ne same ..)
  · exact .inl ⟨other, (List.mem_filter.mp member).1, rfl⟩

theorem Ledger.rmAllExhausted (ledger : out.Ledger queue log handed) (chain : List ListItem)
    (held : ∀ item ∈ chain, ∃ sent ∈ log, sent.ref = item.msg) :
    (out.rmAllExhausted chain).Ledger queue log handed := by
  induction chain generalizing out with
  | nil => exact ledger
  | cons item chain ih =>
      obtain ⟨here, later⟩ := List.forall_mem_cons.mp held
      rw [Outgoing.rmAllExhausted]
      split_ifs
      · exact ih (ledger.delete here) later
      · exact ih ledger later

theorem Ledger.writeMsg (ledger : out.Ledger out.toSendMsg log handed)
    {results : List (Int × Int)} {curTime : Int} (done : out.writeMsg results curTime = .ok out') :
    out'.Ledger out'.toSendMsg (log ++ out.transmissions out.toSendMsg results) handed := by
  obtain ⟨out₁, looped, rest⟩ := bind_ok done
  obtain rfl := Except.ok.inj rest
  have wrote := ledger.writeLoop looped
  let resent := (out₁.control.filter fun item => out₁.needResend item curTime).map ListItem.msg
  have queued : ({ out₁ with toSendMsg := out₁.toSendMsg ++ resent } : Outgoing).Ledger
      (out₁.toSendMsg ++ resent) (log ++ out.transmissions out.toSendMsg results) handed :=
    wrote.fewer rfl (fun _ => .inl rfl) (fun item member => .inl ⟨item, member, rfl⟩)
      fun ref member => List.mem_append_left _ member
  have cleared := queued.rmAllExhausted out₁.control wrote.controlled
  have same : (out₁.resend curTime).toSendMsg = out₁.toSendMsg ++ resent :=
    (rmAllExhausted_spec { out₁ with toSendMsg := out₁.toSendMsg ++ resent } out₁.control).1
  rw [same]
  exact cleared

theorem find_mem {id : Int64} {chain : List ListItem} {item : ListItem}
    (found : out.find id chain = .ok (some item)) : item ∈ chain := by
  induction chain with
  | nil => cases found
  | cons first chain ih =>
      rw [find] at found
      cases object : out.objects first.msg with
      | none =>
          rw [object] at found
          cases found
      | some msg =>
          rw [object] at found
          dsimp only at found
          split_ifs at found
          · obtain rfl := Option.some.inj (Except.ok.inj found)
            exact List.mem_cons_self
          · exact List.mem_cons_of_mem _ (ih found)

theorem Ledger.processCheck (ledger : out.Ledger queue log handed) {reqMsgId : Int64}
    (done : out.processCheck reqMsgId = .ok out') : out'.Ledger queue log handed := by
  obtain ⟨found, seen, rest⟩ := bind_ok done
  cases found with
  | none =>
      obtain rfl := Except.ok.inj rest
      exact ledger
  | some item =>
      obtain rfl := Except.ok.inj rest
      exact ledger.delete (ledger.controlled item (find_mem seen))

theorem Ledger.sendAll (msgs : List Message) (ledger : out.Ledger out.toSendMsg log handed) :
    (msgs.foldl Outgoing.sendMsg out).Ledger (msgs.foldl Outgoing.sendMsg out).toSendMsg log
      (handed ++ msgs) := by
  induction msgs generalizing out handed with
  | nil =>
      rw [List.append_nil]
      exact ledger
  | cons msg msgs ih =>
      have rest := ih (ledger.sendMsg msg)
      rwa [List.append_assoc, List.singleton_append] at rest

theorem Ledger.below (ledger : out.Ledger queue log handed) {sent : Transmission}
    (member : sent ∈ log) : sent.ref < out.nextRef := by
  obtain ⟨made, known, _⟩ := ledger.logged sent member
  rw [ledger.count]
  exact (List.getElem?_eq_some_iff.mp known).1

/-- The contents of the messages that are alive in the queue. -/
def waitingBodies (out : Outgoing) (queue : List MsgRef) : List Body :=
  queue.filterMap fun ref => (out.objects ref).map Message.body

theorem Ledger.accounted (ledger : out.Ledger queue log handed) :
    (handed.map Message.body).Subperm
      (log.map (fun sent => sent.msg.body) ++ out.waitingBodies queue) := by
  let alive := queue.filter fun ref => (out.objects ref).isSome
  have all : (List.range handed.length).Subperm (log.map Transmission.ref ++ alive) := by
    refine List.nodup_range.subperm fun ref member => ?_
    have small := List.mem_range.mp member
    rcases ledger.kept ref (ledger.count ▸ small) with ⟨sent, written, same⟩ | ⟨waits, live⟩
    · exact List.mem_append_left _ (List.mem_map.mpr ⟨sent, written, same⟩)
    · exact List.mem_append_right _
        (List.mem_filter.mpr ⟨waits, Option.isSome_iff_ne_none.mpr live⟩)
  -- the contents are told from the place at which a message was handed over
  let body (ref : MsgRef) : Option Body := (handed[ref]?).map Message.body
  have handed' : (List.range handed.length).filterMap body = handed.map Message.body := by
    have each : (List.range handed.length).map body = handed.map (some ∘ Message.body) := by
      apply List.ext_getElem?
      intro ref
      by_cases small : ref < handed.length <;> simp [body, small]
    have all := congrArg (List.filterMap id) each
    rwa [List.filterMap_map, List.filterMap_map, Function.id_comp, Function.id_comp,
      List.filterMap_eq_map] at all
  have log' : (log.map Transmission.ref).filterMap body = log.map fun sent => sent.msg.body := by
    rw [List.filterMap_map, ← List.filterMap_eq_map]
    refine List.filterMap_congr fun sent member => ?_
    obtain ⟨made, known, same⟩ := ledger.logged sent member
    simp only [Function.comp, body, known, Option.map_some, same]
  have queue' : alive.filterMap body = out.waitingBodies queue := by
    rw [List.filterMap_filter]
    refine List.filterMap_congr fun ref _ => ?_
    cases object : out.objects ref with
    | none => rfl
    | some msg =>
        obtain ⟨made, known, same⟩ := ledger.object ref msg object
        simp only [Option.isSome_some, if_true, body, known, Option.map_some, same]
  obtain ⟨some_, perm, sub⟩ := all
  rw [← handed', ← log', ← queue', ← List.filterMap_append]
  exact ⟨some_.filterMap body, perm.filterMap body, sub.filterMap body⟩

end Ledger

/-- What was written of a message is what it still is, and no other message has its number. -/
structure Distinct (out : Outgoing) (taken : Nat) (log : List Transmission) : Prop where
  same : ∀ sent ∈ log, ∀ msg, out.objects sent.ref = some msg → msg = sent.msg
  given : ∀ sent ∈ log, sent.msg.id ≠ noId
  low : ∀ sent ∈ log, sent.msg.type ≠ .receipt → sent.msg.id.toInt ≤ taken
  own : ∀ sent ∈ log, sent.msg.type ≠ .receipt →
    ∀ ref, out.Numbered ref sent.msg.id → ref = sent.ref

section Distinct

variable {out out' : Outgoing} {taken taken' : Nat} {log log' : List Transmission}

theorem Distinct.subset (distinct : out.Distinct taken log') (fewer : ∀ sent ∈ log, sent ∈ log') :
    out.Distinct taken log := by
  obtain ⟨same, given, low, own⟩ := distinct
  constructor
  · exact fun sent member => same sent (fewer sent member)
  · exact fun sent member => given sent (fewer sent member)
  · exact fun sent member => low sent (fewer sent member)
  · exact fun sent member => own sent (fewer sent member)

theorem Distinct.congr (distinct : out.Distinct taken log) (objects : out'.objects = out.objects) :
    out'.Distinct taken log := by
  obtain ⟨same, given, low, own⟩ := distinct
  refine ⟨?_, given, low, ?_⟩
  · rwa [objects]
  · unfold Numbered at own ⊢
    rwa [objects]

theorem Distinct.later (distinct : out.Distinct taken log) (more : taken ≤ taken') :
    out.Distinct taken' log := by
  obtain ⟨same, given, low, own⟩ := distinct
  refine ⟨same, given, fun sent member kind => ?_, own⟩
  have small := low sent member kind
  omega

/-- Other messages may be numbered, and what was written may be deleted. -/
theorem Distinct.mono (distinct : out.Distinct taken log) (takes : Takes taken taken' out out')
    (objects : ∀ sent ∈ log, ∀ msg, out'.objects sent.ref = some msg →
      out.objects sent.ref = some msg) : out'.Distinct taken' log := by
  obtain ⟨same, given, low, own⟩ := distinct
  have more := takes.more
  constructor
  · exact fun sent member msg live => same sent member msg (objects sent member msg live)
  · exact given
  · intro sent member kind
    have small := low sent member kind
    omega
  · intro sent member kind ref numbered
    rcases takes.old ref _ numbered with before | late
    · exact own sent member kind ref before
    · exact absurd late (Int.not_lt.mpr (low sent member kind))

theorem numbered_id {out : Outgoing} (counter : out.msgNum ≠ noId) (msg : Message) :
    (out.numbered msg).id ≠ noId := by
  unfold numbered
  split_ifs with first
  · exact counter
  · exact first

theorem Distinct.number (distinct : out.Distinct taken log) (registered : out.Registered taken)
    {ref : MsgRef} {msg : Message} (alive : out.objects ref = some msg)
    (registered' : (out.number ref msg).Registered taken')
    (takes : Takes taken taken' out (out.number ref msg)) (size : Nat) :
    (out.number ref msg).Distinct taken' (log ++ [⟨ref, out.numbered msg, size⟩]) := by
  have here : (out.number ref msg).objects ref = some (out.numbered msg) := by
    rw [number_eq out alive, Function.update_self]
  have given := numbered_id registered.counter_ne msg
  have old : (out.number ref msg).Distinct taken' log := by
    refine distinct.mono takes fun sent member msg' live => ?_
    by_cases same : sent.ref = ref
    · -- what was written before has its number already
      rw [same] at live ⊢
      have written := distinct.same sent member msg (same ▸ alive)
      have before : out.numbered msg = msg := if_neg (written ▸ distinct.given sent member)
      rw [here, before] at live
      rw [alive, live]
    · rwa [number_eq out alive, Function.update_of_ne same] at live
  have numbered (kind : (out.numbered msg).type ≠ .receipt) :
      (out.number ref msg).Numbered ref (out.numbered msg).id :=
    ⟨out.numbered msg, here, kind, rfl, given⟩
  constructor
  · intro sent member msg' live
    rcases List.mem_append.mp member with before | new
    · exact old.same sent before msg' live
    · obtain rfl := List.mem_singleton.mp new
      exact Option.some.inj (live.symm.trans here)
  · intro sent member
    rcases List.mem_append.mp member with before | new
    · exact old.given sent before
    · obtain rfl := List.mem_singleton.mp new
      exact given
  · intro sent member kind
    rcases List.mem_append.mp member with before | new
    · exact old.low sent before kind
    · obtain rfl := List.mem_singleton.mp new
      exact (registered'.range ref _ (numbered kind)).2
  · intro sent member kind other numbered'
    rcases List.mem_append.mp member with before | new
    · exact old.own sent before kind other numbered'
    · obtain rfl := List.mem_singleton.mp new
      exact registered'.single other ref _ numbered' (numbered kind)

theorem delete_objects {ref other : MsgRef} {msg : Message}
    (live : (out.delete ref).objects other = some msg) : out.objects other = some msg := by
  change Function.update out.objects ref none other = some msg at live
  by_cases same : other = ref
  · rw [same, Function.update_self] at live
    cases live
  · rwa [Function.update_of_ne same] at live

theorem written_objects {ref other : MsgRef} {msg msg' : Message} {now : Int}
    (live : (out.written ref msg now).objects other = some msg') :
    out.objects other = some msg' := by
  unfold written at live
  split_ifs at live
  · exact delete_objects live
  · exact live
  · exact live

theorem Distinct.writeLoop (distinct : out.Distinct taken log) (registered : out.Registered taken)
    {queue : List MsgRef} {results : List (Int × Int)}
    (done : out.writeLoop queue results = .ok out')
    (room : taken + out'.spent < 2 ^ 63 + out.spent) :
    ∃ taken', out'.Registered taken' ∧ Takes taken taken' out out' ∧
      out'.Distinct taken' (log ++ out.transmissions queue results) := by
  induction queue generalizing out taken log results with
  | nil =>
      cases done
      obtain ⟨registered', takes⟩ := registered.requeue []
      rw [transmissions, List.append_nil]
      exact ⟨taken, registered', takes, distinct.mono takes fun _ _ _ live => live⟩
  | cons ref queue ih =>
      rw [Outgoing.writeLoop] at done
      rw [transmissions]
      cases alive : out.objects ref with
      | none =>
          rw [alive] at done
          cases done
      | some msg =>
          rw [alive] at done
          by_cases complete : (results.headD (-1, 0)).1 = getTypeDataSize msg.type
          · simp only [complete, ↓reduceIte] at done ⊢
            have later := writeLoop_spent_mono done
            have between :=
              written_spent_mono (out.number ref msg) ref msg (results.headD (-1, 0)).2
            obtain ⟨taken₁, registered₁, takes₁, numbered⟩ := registered.number alive (by omega)
            have type : (out.number ref msg).type ref = some msg.type := by
              rw [number_type out alive, Outgoing.type, alive, Option.map_some]
            obtain ⟨registered₂, takes₂⟩ :=
              registered₁.written type numbered (results.headD (-1, 0)).2
            have first := (takes₁.trans takes₂).spent
            have wrote := (distinct.number registered alive registered₁ takes₁
              (getTypeDataSize msg.type)).mono takes₂ fun _ _ _ live => written_objects live
            obtain ⟨taken', registered', takes', distinct'⟩ := ih wrote registered₂ done (by omega)
            rw [List.append_assoc, List.singleton_append] at distinct'
            exact ⟨taken', registered', (takes₁.trans takes₂).trans takes', distinct'⟩
          · simp only [complete, ↓reduceIte] at done ⊢
            cases done
            obtain ⟨taken₁, registered₁, takes₁, -⟩ := registered.number alive room
            obtain ⟨registered₂, takes₂⟩ := registered₁.requeue (queue ++ [ref])
            have wrote (size : Nat) := (distinct.number registered alive registered₁ takes₁
              size).mono takes₂ fun _ _ _ live => live
            refine ⟨taken₁, registered₂, takes₁.trans takes₂, ?_⟩
            split_ifs
            · rw [List.append_nil]
              exact (wrote 0).subset fun sent member => List.mem_append_left _ member
            · exact wrote _

theorem rmAllExhausted_objects (chain : List ListItem) {ref : MsgRef} {msg : Message}
    (live : (out.rmAllExhausted chain).objects ref = some msg) : out.objects ref = some msg := by
  induction chain generalizing out with
  | nil => exact live
  | cons item chain ih =>
      rw [rmAllExhausted] at live
      split_ifs at live
      · have before : (out.delete item.msg).objects ref = some msg := @ih (out.removeMsg item) live
        exact delete_objects before
      · exact ih live

theorem Distinct.writeMsg (distinct : out.Distinct taken log) (registered : out.Registered taken)
    {results : List (Int × Int)} {curTime : Int} (done : out.writeMsg results curTime = .ok out')
    (room : taken + out'.spent < 2 ^ 63 + out.spent) :
    ∃ taken', out'.Registered taken' ∧ Takes taken taken' out out' ∧
      out'.Distinct taken' (log ++ out.transmissions out.toSendMsg results) := by
  obtain ⟨out₁, looped, rest⟩ := bind_ok done
  obtain rfl := Except.ok.inj rest
  let resent := (out₁.control.filter fun item => out₁.needResend item curTime).map ListItem.msg
  have kept : out₁.spent ≤ (out₁.resend curTime).spent :=
    rmAllExhausted_spent_mono { out₁ with toSendMsg := out₁.toSendMsg ++ resent } out₁.control
  obtain ⟨taken', registered₁, takes₁, wrote⟩ := distinct.writeLoop registered looped (by omega)
  obtain ⟨registered₂, takes₂⟩ := registered₁.requeue (out₁.toSendMsg ++ resent)
  obtain ⟨registered', takes'⟩ := registered₂.rmAllExhausted out₁.control
  refine ⟨taken', registered', (takes₁.trans takes₂).trans takes', ?_⟩
  refine wrote.mono (takes₂.trans takes') fun sent member msg live => ?_
  have queued : ({ out₁ with toSendMsg := out₁.toSendMsg ++ resent } : Outgoing).objects sent.ref =
      some msg := rmAllExhausted_objects out₁.control live
  exact queued

theorem processCheck_objects {reqMsgId : Int64} (done : out.processCheck reqMsgId = .ok out')
    {ref : MsgRef} {msg : Message} (live : out'.objects ref = some msg) :
    out.objects ref = some msg := by
  obtain ⟨found, _, rest⟩ := bind_ok done
  cases found with
  | none =>
      obtain rfl := Except.ok.inj rest
      exact live
  | some item =>
      obtain rfl := Except.ok.inj rest
      exact delete_objects live

theorem sendAll_objects (msgs : List Message) {ref : MsgRef} (below : ref < out.nextRef) :
    (msgs.foldl Outgoing.sendMsg out).objects ref = out.objects ref := by
  induction msgs generalizing out with
  | nil => rfl
  | cons msg msgs ih =>
      have next : ref < (out.sendMsg msg).nextRef := Nat.lt_succ_of_lt below
      exact (ih next).trans (Function.update_of_ne (Nat.ne_of_lt below) ..)

theorem Distinct.sendAll (distinct : out.Distinct taken log) {msgs : List Message}
    (made : ∀ msg ∈ msgs, Server.Made msg) (registered : out.Registered taken)
    (below : ∀ sent ∈ log, sent.ref < out.nextRef) :
    (msgs.foldl Outgoing.sendMsg out).Distinct taken log := by
  refine distinct.mono (registered.sendAll made).2 fun sent member msg live => ?_
  rwa [sendAll_objects _ (below sent member)] at live

/-- What is acknowledged under a number is what was written under it. -/
theorem Distinct.named (distinct : out.Distinct taken log) (registered : out.Registered taken)
    {item : ListItem} (member : item ∈ out.control) {msg : Message}
    (object : out.objects item.msg = some msg) {sent : Transmission} (written : sent ∈ log)
    (kind : sent.msg.type ≠ .receipt) (same : sent.msg.id = msg.id) : msg = sent.msg := by
  have numbered : out.Numbered item.msg sent.msg.id :=
    registered.numbered_of_id member (by rw [object, same]; rfl)
  have here := distinct.own sent written kind item.msg numbered
  exact distinct.same sent written msg (here ▸ object)

end Distinct
end Outgoing

namespace Server

theorem step_unheard {srv srv' : Server} {e : Event} (done : srv.step e = .ok srv') {c : ClientId}
    (dead : srv.clients c = none) (empty : srv.toSendMsg c = []) : srv'.toSendMsg c = [] := by
  have new (body : Body) (_ : body.type ≠ .receipt) : Made (Message.new body) := made_new body
  have queued {x : Except Fault Server} (sends : Sends Made srv x) (done : x = .ok srv') :
      srv'.toSendMsg c = [] := (sends.elim done).empty c dead empty
  cases e with
  | accept =>
      obtain rfl : srv.acceptNewConnection = srv' := Except.ok.inj done
      unfold acceptNewConnection
      split <;> exact empty
  | message c' msg now =>
      by_cases present : (srv.clients c').isSome
      · simp only [step, present, ↓reduceIte] at done
        exact queued (processMsg_queues c' msg now) done
      · simp [step, present] at done
  | broken c' =>
      by_cases present : (srv.clients c').isSome
      · simp only [step, present, ↓reduceIte] at done
        exact queued (connBroken_queues new c') done
      · simp [step, present] at done
  | timer id sec usec now draws =>
      cases found : srv.timeoutHandlers.find? fun h => h.id = id with
      | none => simp [step, found] at done
      | some h =>
          simp only [step, found] at done
          exact queued (processTimeout_queues new h sec usec now draws) done

end Server

namespace Mail

structure Booked (mail : Mail) (log : ClientId → List Transmission) : Prop where
  server : mail.srv.Inv
  unheard : ∀ c, mail.srv.nextClient ≤ c → mail.srv.toSendMsg c = []
  ledger : ∀ c, ∃ handed, (mail.out c).Ledger (mail.out c).toSendMsg (log c) handed ∧
    (mail.srv.clients c ≠ none ∨ mail.srv.nextClient ≤ c → handed = mail.srv.toSendMsg c)
  numbers : mail.sent < 2 ^ 63 →
    ∃ taken, mail.Counted taken ∧ ∀ c, (mail.out c).Distinct taken (log c)

section Booked

variable {mail mail' : Mail} {log : ClientId → List Transmission}

theorem sent_handOver (sound : mail.srv.Sound) {srv : Server} {e : Server.Event}
    (done : mail.srv.step e = .ok srv) : mail.sent ≤ (mail.handOver srv).sent :=
  sum_grows (handOver_nextRef mail srv) (Server.step_nextClient sound done)

theorem sent_setOutgoing {c : ClientId} (known : c < mail.srv.nextClient) {out : Outgoing}
    (nextRef : out.nextRef = (mail.out c).nextRef) : (mail.setOutgoing c out).sent = mail.sent := by
  have sums := sum_setOutgoing mail known out Outgoing.nextRef fun _ => rfl
  rw [nextRef] at sums
  exact Nat.add_right_cancel sums

theorem handOver_out {srv : Server} {e : Server.Event} (done : mail.srv.step e = .ok srv)
    (c : ClientId) : ∃ msgs, (mail.handOver srv).out c = msgs.foldl Outgoing.sendMsg (mail.out c) ∧
      (∀ msg ∈ msgs, Server.Made msg) ∧
      (srv.clients c ≠ none → srv.toSendMsg c = mail.srv.toSendMsg c ++ msgs) ∧
      (srv.clients c = none → msgs = []) := by
  cases alive : srv.clients c with
  | none =>
      refine ⟨[], ?_, fun _ member => absurd member List.not_mem_nil,
        fun live => absurd rfl live, fun _ => rfl⟩
      simp only [handOver, alive, List.foldl_nil]
  | some client =>
      obtain ⟨msgs, append, made⟩ := Server.step_appends done (c := c) (by simp [alive])
      refine ⟨msgs, ?_, made, fun _ => append,
        fun dead => absurd dead (Option.some_ne_none client)⟩
      simp only [handOver, alive, append, List.drop_left]

theorem Booked.handOver (booked : mail.Booked log) {srv : Server} {e : Server.Event}
    (done : mail.srv.step e = .ok srv) : (mail.handOver srv).Booked log := by
  obtain ⟨server, unheard, ledger, numbers⟩ := booked
  have next := Server.step_nextClient server.sound done
  constructor
  · exact Server.step_inv server done
  · intro c late
    have late' : mail.srv.nextClient ≤ c := next.trans late
    exact Server.step_unheard done (server.sound.seats.unknown c late') (unheard c late')
  · intro c
    obtain ⟨handed, ledger, all⟩ := ledger c
    obtain ⟨msgs, out, _, append, none⟩ := handOver_out done c
    refine ⟨handed ++ msgs, by rw [out]; exact ledger.sendAll msgs, fun there => ?_⟩
    have there : srv.clients c ≠ Option.none ∨ srv.nextClient ≤ c := there
    change handed ++ msgs = srv.toSendMsg c
    rcases there with alive | late
    · rw [append alive, all]
      by_cases old : c < mail.srv.nextClient
      · exact .inl ((Server.step_known server.sound done old).2 alive)
      · exact .inr (Nat.not_lt.mp old)
    · have late' : mail.srv.nextClient ≤ c := next.trans late
      have dead := (Server.step_inv server done).sound.seats.unknown c late
      have empty := unheard c late'
      rw [none dead, List.append_nil, all (.inr late'), empty]
      exact (Server.step_unheard done (server.sound.seats.unknown c late') empty).symm
  · intro few
    obtain ⟨taken, counted, distinct⟩ :=
      numbers (lt_of_le_of_lt (sent_handOver server.sound done) few)
    refine ⟨taken, counted.handOver server.sound done, fun c => ?_⟩
    obtain ⟨msgs, out, made, _⟩ := handOver_out done c
    obtain ⟨handed, ledger, _⟩ := ledger c
    have before : (mail.outgoing c).Distinct taken (log c) := (distinct c).congr rfl
    have sent := before.sendAll made (counted.registered c) fun sent => ledger.below
    rw [outgoing, ← Outgoing.sendAll_msgNum] at sent
    rw [out]
    exact sent.congr rfl

/-- The messages of one client have changed, and `more` was written to it. -/
theorem Booked.set (booked : mail.Booked log) {c : ClientId} (known : c < mail.srv.nextClient)
    {out : Outgoing} {more : List Transmission} (nextRef : out.nextRef = (mail.out c).nextRef)
    (ledger : ∀ handed, (mail.outgoing c).Ledger (mail.out c).toSendMsg (log c) handed →
      out.Ledger out.toSendMsg (log c ++ more) handed)
    (takes : ∀ taken, (mail.outgoing c).Registered taken →
      (mail.outgoing c).Distinct taken (log c) →
      taken + out.spent < 2 ^ 63 + (mail.outgoing c).spent →
      ∃ taken', out.Registered taken' ∧ Outgoing.Takes taken taken' (mail.outgoing c) out ∧
        out.Distinct taken' (log c ++ more)) :
    (mail.setOutgoing c out).Booked (Function.update log c (log c ++ more)) := by
  obtain ⟨server, unheard, ledgers, numbers⟩ := booked
  have here : (mail.setOutgoing c out).out c = { out with msgNum := (mail.out c).msgNum } :=
    Function.update_self ..
  have elsewhere {d : ClientId} (other : d ≠ c) : (mail.setOutgoing c out).out d = mail.out d :=
    Function.update_of_ne other ..
  constructor
  · exact server
  · exact unheard
  · intro d
    obtain ⟨handed, before, all⟩ := ledgers d
    refine ⟨handed, ?_, all⟩
    by_cases same : d = c
    · subst same
      rw [here, Function.update_self]
      exact (ledger handed (before.congr rfl rfl rfl)).congr rfl rfl rfl
    · rw [elsewhere same, Function.update_of_ne same]
      exact before
  · intro few
    rw [sent_setOutgoing known nextRef] at few
    obtain ⟨taken, counted, distinct⟩ := numbers few
    have sums := sum_setOutgoing mail known out Outgoing.spent fun _ => rfl
    have below := spent_le_sent (mail.setOutgoing c out)
    have bound := counted.bound
    rw [sent_setOutgoing known nextRef] at below
    -- No client has spent more numbers than messages were sent to it.
    have room : taken + out.spent < 2 ^ 63 + (mail.outgoing c).spent := by
      change _ < 2 ^ 63 + (mail.out c).spent
      change ∑ d ∈ Finset.range mail.srv.nextClient, ((mail.setOutgoing c out).out d).spent ≤ _
        at below
      omega
    obtain ⟨taken', registered, took, distinct'⟩ :=
      takes taken (counted.registered c) ((distinct c).congr rfl) room
    refine ⟨taken', counted.set known registered took, fun d => ?_⟩
    by_cases same : d = c
    · subst same
      rw [here, Function.update_self]
      exact distinct'.congr rfl
    · rw [elsewhere same, Function.update_of_ne same]
      exact (distinct d).later took.more

theorem Booked.processReceiptMsg (booked : mail.Booked log) {c : ClientId}
    (known : c < mail.srv.nextClient) {reqMsgId : Int64}
    (done : mail.processReceiptMsg c reqMsgId = .ok mail') : mail'.Booked log := by
  obtain ⟨out, checked, rest⟩ := bind_ok done
  obtain rfl := Except.ok.inj rest
  obtain ⟨nextRef, queue, _⟩ := Outgoing.processCheck_spec checked
  have set : (mail.setOutgoing c out).Booked (Function.update log c (log c ++ [])) := by
    apply booked.set known nextRef
    · intro handed ledger
      rw [queue, List.append_nil]
      exact ledger.processCheck checked
    · intro taken registered distinct _
      obtain ⟨registered', takes⟩ := registered.processCheck checked
      refine ⟨taken, registered', takes, ?_⟩
      rw [List.append_nil]
      exact distinct.mono takes fun _ _ _ live => Outgoing.processCheck_objects checked live
  rwa [List.append_nil, Function.update_eq_self] at set

theorem Booked.writeMsg (booked : mail.Booked log) {c : ClientId}
    (known : c < mail.srv.nextClient) {results : List (Int × Int)} {curTime : Int}
    (done : mail.writeMsg c results curTime = .ok mail') :
    mail'.Booked (Function.update log c (log c ++
      (mail.outgoing c).transmissions (mail.outgoing c).toSendMsg results)) := by
  obtain ⟨out, wrote, rest⟩ := bind_ok done
  obtain rfl := Except.ok.inj rest
  apply booked.set known (Outgoing.writeMsg_spec wrote).1
  · exact fun handed ledger => ledger.writeMsg wrote
  · exact fun taken registered distinct room => distinct.writeMsg registered wrote room

theorem Booked.server_step (booked : mail.Booked log) {e : Server.Event}
    (done : mail.step (.server e) = .ok mail') : mail'.Booked log := by
  obtain ⟨srv, first, rest⟩ := bind_ok done
  replace first := mapError_ok first
  have handed := booked.handOver first
  split at rest
  · rename_i c id reqMsgId now
    refine handed.processReceiptMsg ?_ (mapError_ok rest)
    have alive : (mail.srv.clients c).isSome = true := by
      by_contra absent
      simp [Server.step, absent] at first
    exact lt_of_lt_of_le (known_of_alive booked.server.sound alive)
      (Server.step_nextClient booked.server.sound first)
  · obtain rfl := Except.ok.inj rest
    exact handed

theorem Booked.write_step (booked : mail.Booked log) {c : ClientId} {results : List (Int × Int)}
    {curTime : Int} (done : mail.step (.write c results curTime) = .ok mail') :
    mail'.Booked (Function.update log c (log c ++
      (mail.outgoing c).transmissions (mail.outgoing c).toSendMsg results)) := by
  by_cases alive : (mail.srv.clients c).isSome = true
  · simp only [Mail.step, alive, ↓reduceIte] at done
    exact booked.writeMsg (known_of_alive booked.server.sound alive) (mapError_ok done)
  · simp [Mail.step, alive] at done

theorem init_booked : init.Booked fun _ => [] := by
  obtain ⟨server, counted⟩ := init_inv
  constructor
  · exact server
  · exact fun c _ => rfl
  · exact fun c => ⟨[], Outgoing.init_ledger _ _, fun _ => rfl⟩
  · intro few
    obtain ⟨taken, counted⟩ := counted few
    refine ⟨taken, counted, fun c => ?_⟩
    constructor
    · exact fun sent member => absurd member List.not_mem_nil
    · exact fun sent member => absurd member List.not_mem_nil
    · exact fun sent member => absurd member List.not_mem_nil
    · exact fun sent member => absurd member List.not_mem_nil

end Booked
end Mail
end Battleship
