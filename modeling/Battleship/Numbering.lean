import Battleship.ByteStream

/-! The numbers of the messages. A message gets the next one when it is written for the
first time, keeps it when the writing fails, and is looked up by it when a receipt
comes. -/
namespace Battleship

open Runs

namespace Outgoing

def Numbered (out : Outgoing) (ref : MsgRef) (id : Int64) : Prop :=
  ∃ msg, out.objects ref = some msg ∧ msg.type ≠ .receipt ∧ msg.id = id ∧ id ≠ noId

def unnumbered (out : Outgoing) (ref : MsgRef) : Bool :=
  (out.objects ref).any fun msg => msg.id = noId

def spent (out : Outgoing) : Nat :=
  ((Finset.range out.nextRef).filter fun ref => out.unnumbered ref = false).card

theorem spent_le (out : Outgoing) : out.spent ≤ out.nextRef :=
  (Finset.card_filter_le _ _).trans (Finset.card_range _).le

theorem spent_mono {out out' : Outgoing} (next : out.nextRef ≤ out'.nextRef)
    (kept : ∀ ref, ref < out.nextRef → out'.unnumbered ref = true → out.unnumbered ref = true) :
    out.spent ≤ out'.spent := by
  refine Finset.card_le_card fun ref member => ?_
  obtain ⟨below, numbered⟩ := Finset.mem_filter.mp member
  have below := Finset.mem_range.mp below
  refine Finset.mem_filter.mpr ⟨Finset.mem_range.mpr (below.trans_le next), ?_⟩
  by_contra waits
  cases (kept ref below (Bool.not_eq_false _ ▸ waits)).symm.trans numbered

/-- The messages of a client when `taken` numbers were given out to all clients. -/
structure Registered (out : Outgoing) (taken : Nat) : Prop where
  counter : out.msgNum = Int64.ofNat (taken + 1)
  small : taken < 2 ^ 63
  owned : ∀ item ∈ out.control, ∃ id, out.Numbered item.msg id
  apart : (out.control.map ListItem.msg).Nodup
  known : ∀ ref, out.objects ref ≠ none → ref < out.nextRef
  range : ∀ ref id, out.Numbered ref id → 0 < id.toInt ∧ id.toInt ≤ taken
  single : ∀ ref ref' id, out.Numbered ref id → out.Numbered ref' id → ref = ref'

/-- An operation has taken the numbers from `taken` on to `taken'`, no more than it has
given to messages. -/
structure Takes (taken taken' : Nat) (out out' : Outgoing) : Prop where
  more : taken ≤ taken'
  spent : taken' + out.spent ≤ taken + out'.spent
  old : ∀ ref id, out'.Numbered ref id → out.Numbered ref id ∨ (taken : Int) < id.toInt

section Operations

variable {out out' out'' : Outgoing} {taken taken' taken'' : Nat}

theorem Takes.trans (first : Takes taken taken' out out') (second : Takes taken' taken'' out' out'') :
    Takes taken taken'' out out'' := by
  refine ⟨first.more.trans second.more, ?_, fun ref id numbered => ?_⟩
  · have := first.spent
    have := second.spent
    omega
  · rcases second.old ref id numbered with before | late
    · exact first.old ref id before
    · refine .inr (lt_of_le_of_lt ?_ late)
      exact_mod_cast first.more

/-- An operation that gives out no number and only deletes messages. -/
theorem Registered.fewer (registered : out.Registered taken)
    (objects : ∀ ref, out'.objects ref = out.objects ref ∨ out'.objects ref = none)
    (msgNum : out'.msgNum = out.msgNum) (nextRef : out'.nextRef = out.nextRef)
    (owned : ∀ item ∈ out'.control, ∃ id, out'.Numbered item.msg id)
    (apart : (out'.control.map ListItem.msg).Nodup) :
    out'.Registered taken ∧ Takes taken taken out out' := by
  have back {ref : MsgRef} {id : Int64} (numbered : out'.Numbered ref id) :
      out.Numbered ref id := by
    obtain ⟨msg, object, rest⟩ := numbered
    rcases objects ref with same | dead
    · exact ⟨msg, same ▸ object, rest⟩
    · cases dead.symm.trans object
  refine ⟨⟨msgNum.trans registered.counter, registered.small, owned, apart, ?_, ?_, ?_⟩,
    le_refl taken, ?_, fun ref id numbered => .inl (back numbered)⟩
  · intro ref alive
    rw [nextRef]
    refine registered.known ref fun dead => alive ?_
    rcases objects ref with same | dead'
    · rw [same, dead]
    · exact dead'
  · exact fun ref id numbered => registered.range ref id (back numbered)
  · exact fun ref ref' id left right => registered.single ref ref' id (back left) (back right)
  · refine Nat.add_le_add_left (spent_mono nextRef.ge fun ref _ waits => ?_) taken
    unfold unnumbered at waits ⊢
    rcases objects ref with same | dead
    · rwa [same] at waits
    · rw [dead] at waits
      cases waits

theorem Takes.refl (taken : Nat) (out : Outgoing) : Takes taken taken out out :=
  ⟨le_refl _, le_refl _, fun _ _ numbered => .inl numbered⟩

theorem Registered.requeue (registered : out.Registered taken) (queue : List MsgRef) :
    { out with toSendMsg := queue }.Registered taken ∧
      Takes taken taken out { out with toSendMsg := queue } :=
  registered.fewer (fun _ => .inl rfl) rfl rfl registered.owned registered.apart

theorem number_objects (out : Outgoing) {ref : MsgRef} {msg : Message} (first : msg.id = noId) :
    (out.number ref msg).objects =
      Function.update out.objects ref (some { msg with id := out.msgNum }) := by
  rw [number, if_pos first]

theorem number_spent_mono (out : Outgoing) {ref : MsgRef} {msg : Message}
    (alive : out.objects ref = some msg) : out.spent ≤ (out.number ref msg).spent := by
  refine spent_mono (number_nextRef out ref msg).ge fun other _ waits => ?_
  by_cases first : msg.id = noId
  · by_cases same : other = ref
    · subst same
      rw [unnumbered, alive]
      simpa using first
    · rwa [unnumbered, number_objects out first, Function.update_of_ne same] at waits
  · rwa [number, if_neg first] at waits

/-- The counter is not at zero while numbers below 2 ^ 63 are given out. -/
theorem Registered.counter_ne (registered : out.Registered taken) : out.msgNum ≠ noId := by
  rw [registered.counter]
  have small := registered.small
  -- The counter itself may be 2 ^ 63, which is the smallest negative number.
  rcases Nat.lt_or_ge (taken + 1) (2 ^ 63) with less | more
  · intro zero
    have value := Int64.toInt_ofNat_of_lt less
    rw [zero] at value
    change (0 : Int) = _ at value
    omega
  · obtain rfl : taken = 2 ^ 63 - 1 := by omega
    decide

theorem Registered.number_spent (registered : out.Registered taken) {ref : MsgRef} {msg : Message}
    (alive : out.objects ref = some msg) (first : msg.id = noId) :
    (out.number ref msg).spent = out.spent + 1 := by
  have below : ref < out.nextRef := registered.known ref (by simp [alive])
  have waited : out.unnumbered ref = true := by
    rw [unnumbered, alive]
    simpa using first
  have split : ((Finset.range (out.number ref msg).nextRef).filter fun other =>
      (out.number ref msg).unnumbered other = false) =
      insert ref ((Finset.range out.nextRef).filter fun other => out.unnumbered other = false) := by
    ext other
    rw [Finset.mem_filter, Finset.mem_insert, Finset.mem_filter, number_nextRef, Finset.mem_range]
    by_cases same : other = ref
    · subst same
      simp [unnumbered, number_objects out first, below, registered.counter_ne]
    · simp [unnumbered, number_objects out first, same]
  rw [spent, split, Finset.card_insert_of_notMem, ← spent]
  simp [waited]

/-- Among the numbered messages there is one more, under the counter. -/
theorem Registered.numbered_iff (registered : out.Registered taken) {ref : MsgRef} {msg : Message}
    (first : msg.id = noId) {other : MsgRef} {id : Int64} :
    (out.number ref msg).Numbered other id ↔
      if other = ref then msg.type ≠ .receipt ∧ id = out.msgNum else out.Numbered other id := by
  unfold Numbered
  rw [number_objects out first]
  by_cases same : other = ref
  · subst same
    rw [Function.update_self, if_pos rfl]
    constructor
    · rintro ⟨_, object, kind, named, _⟩
      obtain rfl := Option.some.inj object
      exact ⟨kind, named.symm⟩
    · rintro ⟨kind, rfl⟩
      exact ⟨_, rfl, kind, rfl, registered.counter_ne⟩
  · rw [Function.update_of_ne same, if_neg same]

theorem Registered.counter_toInt (registered : out.Registered taken) (small : taken + 1 < 2 ^ 63) :
    out.msgNum.toInt = taken + 1 := by
  rw [registered.counter, Int64.toInt_ofNat_of_lt small]
  push_cast
  rfl

theorem Registered.number_fresh (registered : out.Registered taken) (small : taken + 1 < 2 ^ 63)
    (ref : MsgRef) : ¬ out.Numbered ref out.msgNum := by
  intro numbered
  have bound := (registered.range ref _ numbered).2
  have counter := registered.counter_toInt small
  omega

theorem Registered.number_first (registered : out.Registered taken) {ref : MsgRef} {msg : Message}
    (alive : out.objects ref = some msg) (first : msg.id = noId) (small : taken + 1 < 2 ^ 63) :
    (out.number ref msg).Registered (taken + 1) ∧
      Takes taken (taken + 1) out (out.number ref msg) := by
  have counter := registered.counter_toInt small
  have waiting {id : Int64} : ¬ out.Numbered ref id := by
    rintro ⟨msg', object, _, same, positive⟩
    obtain rfl := Option.some.inj (alive.symm.trans object)
    exact positive (same ▸ first)
  constructor
  · constructor
    · rw [Outgoing.number, if_pos first]
      change out.msgNum + 1 = _
      rw [registered.counter, Int64.ofNat_add (taken + 1) 1]
      rfl
    · exact small
    · intro item member
      rw [number_control] at member
      obtain ⟨id, numbered⟩ := registered.owned item member
      refine ⟨id, (registered.numbered_iff first).mpr ?_⟩
      rw [if_neg (by rintro same; exact waiting (same ▸ numbered))]
      exact numbered
    · rw [number_control]
      exact registered.apart
    · intro other live
      rw [number_nextRef]
      by_cases same : other = ref
      · exact registered.known other (by simp [same, alive])
      · rw [number_objects out first, Function.update_of_ne same] at live
        exact registered.known other live
    · intro other id numbered
      rw [registered.numbered_iff first] at numbered
      split_ifs at numbered
      · rw [numbered.2, counter]
        push_cast
        omega
      · have := registered.range other id numbered
        push_cast
        omega
    · -- one of the two may be the message that has just got the counter
      intro other other' id left right
      rw [registered.numbered_iff first] at left right
      split_ifs at left right with here here'
      · rw [here, here']
      · exact absurd (left.2 ▸ right) (registered.number_fresh small other')
      · exact absurd (right.2 ▸ left) (registered.number_fresh small other)
      · exact registered.single other other' id left right
  · constructor
    · exact Nat.le_succ taken
    · have more := registered.number_spent alive first
      omega
    · intro other id numbered
      rw [registered.numbered_iff first] at numbered
      split_ifs at numbered
      · right
        rw [numbered.2, counter]
        omega
      · exact .inl numbered

theorem Registered.number (registered : out.Registered taken) {ref : MsgRef} {msg : Message}
    (alive : out.objects ref = some msg)
    (room : taken + (out.number ref msg).spent < 2 ^ 63 + out.spent) :
    ∃ taken', (out.number ref msg).Registered taken' ∧
      Takes taken taken' out (out.number ref msg) ∧
      (msg.type ≠ .receipt → ∃ id, (out.number ref msg).Numbered ref id) := by
  by_cases first : msg.id = noId
  · have small : taken + 1 < 2 ^ 63 := by
      have more := registered.number_spent alive first
      omega
    obtain ⟨registered', takes⟩ := registered.number_first alive first small
    refine ⟨taken + 1, registered', takes, fun kind => ⟨out.msgNum, ?_⟩⟩
    rw [registered.numbered_iff first, if_pos rfl]
    exact ⟨kind, rfl⟩
  · have same : out.number ref msg = out := if_neg first
    rw [same]
    exact ⟨taken, registered, .refl taken out, fun kind => ⟨msg.id, msg, alive, kind, rfl, first⟩⟩

theorem Registered.without (registered : out.Registered taken) {ref : MsgRef}
    (objects : out'.objects = Function.update out.objects ref none)
    (msgNum : out'.msgNum = out.msgNum) (nextRef : out'.nextRef = out.nextRef)
    (control : out'.control.Sublist out.control) (free : ∀ item ∈ out'.control, item.msg ≠ ref) :
    out'.Registered taken ∧ Takes taken taken out out' := by
  have others {other : MsgRef} (differs : other ≠ ref) : out'.objects other = out.objects other := by
    rw [objects, Function.update_of_ne differs]
  refine registered.fewer (fun other => ?_) msgNum nextRef (fun item member => ?_)
    (registered.apart.sublist (control.map _))
  · by_cases same : other = ref
    · subst same
      exact .inr (by rw [objects, Function.update_self])
    · exact .inl (others same)
  · obtain ⟨id, msg, object, rest⟩ := registered.owned item (control.subset member)
    exact ⟨id, msg, (others (free item member)).trans object, rest⟩

theorem Registered.written (registered : out.Registered taken) {ref : MsgRef} {msg : Message}
    (type : out.type ref = some msg.type)
    (numbered : msg.type ≠ .receipt → ∃ id, out.Numbered ref id) (now : Int) :
    (out.written ref msg now).Registered taken ∧
      Takes taken taken out (out.written ref msg now) := by
  unfold Outgoing.written
  split_ifs with receipt free
  · refine registered.without rfl rfl rfl (List.Sublist.refl _) fun item member same => ?_
    obtain ⟨id, msg', object, kind, _⟩ := registered.owned item member
    rw [Outgoing.type, ← same, object, Option.map_some, receipt] at type
    exact kind (Option.some.inj type)
  · refine registered.fewer (fun _ => .inl rfl) rfl rfl (fun item member => ?_) ?_
    · rcases List.mem_cons.mp member with rfl | old
      · exact numbered receipt
      · exact registered.owned item old
    · refine List.nodup_cons.mpr ⟨fun inside => ?_, registered.apart⟩
      rw [← underControl_mem] at inside
      simp [inside] at free
  · refine registered.fewer (fun _ => .inl rfl) rfl rfl (fun item member => ?_) ?_
    · have inside := List.mem_map_of_mem (f := ListItem.msg) member
      rw [decrease_msgs] at inside
      obtain ⟨old, member, same⟩ := List.mem_map.mp inside
      rw [← same]
      exact registered.owned old member
    · rw [decrease_msgs]
      exact registered.apart

theorem delete_spent_mono (out : Outgoing) (ref : MsgRef) : out.spent ≤ (out.delete ref).spent := by
  refine spent_mono (le_refl _) fun other _ waits => ?_
  by_cases same : other = ref
  · subst same
    simp [unnumbered, delete] at waits
  · simpa [unnumbered, delete, same] using waits

theorem written_spent_mono (out : Outgoing) (ref : MsgRef) (msg : Message) (now : Int) :
    out.spent ≤ (out.written ref msg now).spent := by
  unfold Outgoing.written
  split_ifs
  · exact delete_spent_mono out ref
  · exact le_refl _
  · exact le_refl _

theorem writeLoop_spent_mono {queue : List MsgRef} {results : List (Int × Int)}
    (done : out.writeLoop queue results = .ok out') : out.spent ≤ out'.spent := by
  induction queue generalizing out results with
  | nil =>
      cases done
      exact le_refl _
  | cons ref queue ih =>
      rw [writeLoop] at done
      cases alive : out.objects ref with
      | none =>
          rw [alive] at done
          cases done
      | some msg =>
          rw [alive] at done
          have first := number_spent_mono out alive
          by_cases complete : (results.headD (-1, 0)).1 = getTypeDataSize msg.type
          · simp only [complete, ↓reduceIte] at done
            exact (first.trans (written_spent_mono _ _ _ _)).trans (ih done)
          · simp only [complete, ↓reduceIte] at done
            cases done
            exact first

theorem Registered.writeLoop (registered : out.Registered taken) {queue : List MsgRef}
    {results : List (Int × Int)} (done : out.writeLoop queue results = .ok out')
    (room : taken + out'.spent < 2 ^ 63 + out.spent) :
    ∃ taken', out'.Registered taken' ∧ Takes taken taken' out out' := by
  -- `room` is about the whole loop: what a turn spends is part of it.
  induction queue generalizing out taken results with
  | nil =>
      cases done
      exact ⟨taken, registered.requeue []⟩
  | cons ref queue ih =>
      rw [Outgoing.writeLoop] at done
      cases alive : out.objects ref with
      | none =>
          rw [alive] at done
          cases done
      | some msg =>
          rw [alive] at done
          by_cases complete : (results.headD (-1, 0)).1 = getTypeDataSize msg.type
          · simp only [complete, ↓reduceIte] at done
            have later := writeLoop_spent_mono done
            have between := written_spent_mono (out.number ref msg) ref msg (results.headD (-1, 0)).2
            obtain ⟨taken₁, registered₁, takes₁, numbered⟩ := registered.number alive (by omega)
            have type : (out.number ref msg).type ref = some msg.type := by
              rw [number_type out alive, Outgoing.type, alive, Option.map_some]
            obtain ⟨registered₂, takes₂⟩ := registered₁.written type numbered (results.headD (-1, 0)).2
            have first := (takes₁.trans takes₂).spent
            obtain ⟨taken', registered', takes'⟩ := ih registered₂ done (by omega)
            exact ⟨taken', registered', (takes₁.trans takes₂).trans takes'⟩
          · simp only [complete, ↓reduceIte] at done
            cases done
            obtain ⟨taken₁, registered₁, takes₁, -⟩ := registered.number alive room
            obtain ⟨registered₂, takes₂⟩ := registered₁.requeue (queue ++ [ref])
            exact ⟨taken₁, registered₂, takes₁.trans takes₂⟩

theorem Registered.removeMsg (registered : out.Registered taken) (item : ListItem) :
    (out.removeMsg item).Registered taken ∧ Takes taken taken out (out.removeMsg item) := by
  refine registered.without rfl rfl rfl List.filter_sublist fun other member => ?_
  simpa using (List.mem_filter.mp member).2

theorem Registered.rmAllExhausted (registered : out.Registered taken) (chain : List ListItem) :
    (out.rmAllExhausted chain).Registered taken ∧
      Takes taken taken out (out.rmAllExhausted chain) := by
  induction chain generalizing out with
  | nil => exact ⟨registered, .refl taken out⟩
  | cons item chain ih =>
      rw [Outgoing.rmAllExhausted]
      split_ifs
      · obtain ⟨registered₁, takes₁⟩ := registered.removeMsg item
        obtain ⟨registered', takes'⟩ := ih registered₁
        exact ⟨registered', takes₁.trans takes'⟩
      · exact ih registered

theorem rmAllExhausted_spent_mono (out : Outgoing) (chain : List ListItem) :
    out.spent ≤ (out.rmAllExhausted chain).spent := by
  induction chain generalizing out with
  | nil => exact le_refl _
  | cons item chain ih =>
      rw [Outgoing.rmAllExhausted]
      split_ifs
      · exact (delete_spent_mono out item.msg).trans (ih (out.removeMsg item))
      · exact ih out

theorem Registered.writeMsg (registered : out.Registered taken) {results : List (Int × Int)}
    {curTime : Int} (done : out.writeMsg results curTime = .ok out')
    (room : taken + out'.spent < 2 ^ 63 + out.spent) :
    ∃ taken', out'.Registered taken' ∧ Takes taken taken' out out' := by
  obtain ⟨out₁, looped, rest⟩ := bind_ok done
  obtain rfl := Except.ok.inj rest
  let resent := (out₁.control.filter fun item => out₁.needResend item curTime).map ListItem.msg
  have kept : out₁.spent ≤ (out₁.resend curTime).spent :=
    rmAllExhausted_spent_mono { out₁ with toSendMsg := out₁.toSendMsg ++ resent } out₁.control
  obtain ⟨taken', registered₁, takes₁⟩ := registered.writeLoop looped (by omega)
  obtain ⟨registered₂, takes₂⟩ := registered₁.requeue (out₁.toSendMsg ++ resent)
  obtain ⟨registered', takes'⟩ := registered₂.rmAllExhausted out₁.control
  exact ⟨taken', registered', (takes₁.trans takes₂).trans takes'⟩

theorem Registered.processCheck (registered : out.Registered taken) {reqMsgId : Int64}
    (done : out.processCheck reqMsgId = .ok out') :
    out'.Registered taken ∧ Takes taken taken out out' := by
  obtain ⟨found, -, rest⟩ := bind_ok done
  cases found with
  | none =>
      obtain rfl := Except.ok.inj rest
      exact ⟨registered, .refl taken out⟩
  | some item =>
      obtain rfl := Except.ok.inj rest
      exact registered.removeMsg item

/-- The numbers of the messages under control, as `_find` reads them. -/
def ids (out : Outgoing) : List Int64 :=
  out.control.filterMap fun item => (out.objects item.msg).map Message.id

theorem Registered.numbered_of_id (registered : out.Registered taken) {item : ListItem}
    (member : item ∈ out.control) {id : Int64}
    (named : (out.objects item.msg).map Message.id = some id) : out.Numbered item.msg id := by
  obtain ⟨id', msg, object, kind, same, positive⟩ := registered.owned item member
  rw [object, Option.map_some, Option.some.injEq, same] at named
  subst named
  exact ⟨msg, object, kind, same, positive⟩

theorem Registered.find (registered : out.Registered taken) (reqMsgId : Int64) :
    out.find reqMsgId out.control = .ok (out.control.find? fun item =>
      (out.objects item.msg).any fun msg => msg.id = reqMsgId) := by
  refine find_total reqMsgId fun item member dead => ?_
  obtain ⟨_, msg, object, _⟩ := registered.owned item member
  cases object.symm.trans (type_eq_none.mp dead)

theorem new_unnumbered (body : Body) :
    (Message.new body).type = .receipt ∨ (Message.new body).id = noId := by
  cases body with
  | receipt reqMsgId => exact .inl rfl
  | _ => exact .inr rfl

theorem Registered.sendMsg (registered : out.Registered taken) (body : Body) :
    (out.sendMsg (Message.new body)).Registered taken ∧
      Takes taken taken out (out.sendMsg (Message.new body)) := by
  have old {ref : MsgRef} (below : ref < out.nextRef) :
      (out.sendMsg (Message.new body)).objects ref = out.objects ref :=
    Function.update_of_ne (Nat.ne_of_lt below) _ _
  have below {ref : MsgRef} {id : Int64} (numbered : out.Numbered ref id) : ref < out.nextRef := by
    obtain ⟨msg, object, _⟩ := numbered
    exact registered.known ref (by simp [object])
  have back {ref : MsgRef} {id : Int64}
      (numbered : (out.sendMsg (Message.new body)).Numbered ref id) : out.Numbered ref id := by
    obtain ⟨msg, object, kind, same, positive⟩ := numbered
    by_cases new : ref = out.nextRef
    · subst new
      obtain rfl : Message.new body = msg := by simpa [Outgoing.sendMsg] using object
      -- The message that is sent is a receipt or has no number yet.
      rcases new_unnumbered body with receipt | first
      · exact absurd receipt kind
      · exact absurd (same.symm.trans first) positive
    · have object : out.objects ref = some msg := by
        simpa [Outgoing.sendMsg, Function.update_of_ne new] using object
      exact ⟨msg, object, kind, same, positive⟩
  refine ⟨⟨registered.counter, registered.small, fun item member => ?_, registered.apart,
    fun ref live => ?_, fun ref id numbered => registered.range ref id (back numbered),
    fun ref ref' id left right => registered.single ref ref' id (back left) (back right)⟩,
    le_refl taken, Nat.add_le_add_left (spent_mono (Nat.le_succ _) fun ref lt waits => ?_) taken,
    fun ref id numbered => .inl (back numbered)⟩
  · obtain ⟨id, numbered⟩ := registered.owned item member
    have known := below numbered
    obtain ⟨msg, object, rest⟩ := numbered
    exact ⟨id, msg, (old known).trans object, rest⟩
  · by_cases new : ref = out.nextRef
    · subst new
      exact Nat.lt_succ_self _
    · refine Nat.lt_succ_of_lt (registered.known ref ?_)
      simpa [Outgoing.sendMsg, Function.update_of_ne new] using live
  · rwa [unnumbered, old lt] at waits

end Operations
end Outgoing
end Battleship
