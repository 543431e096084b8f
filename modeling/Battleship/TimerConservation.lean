import Battleship.TurnHandler
import Battleship.StartFields

/-! The timer pass ends, whatever time has passed, and loses no handler. Events register
handlers in the list that is being drained, and a whole game may be played in one pass; but
each handler leads on in its game, and a new turn costs an untried cell. -/
namespace Battleship

open Runs SlotTable

namespace GameField

theorem registerShot_untried {f : GameField} {point other : Point} (untried : f.Untried point)
    (left : (f.registerShot point).2.Untried other) : f.Untried other ∧ other ≠ point := by
  obtain ⟨inside, nohit, nomiss⟩ := untried_iff.mp left
  have different : other ≠ point := by
    rintro rfl
    exact (registerShot_cell f other untried).elim nohit nomiss
  refine ⟨untried_iff.mpr ⟨inside, ?_⟩, different⟩
  obtain ⟨within, water | whole⟩ := untried
  · rw [registerShot_missed f point within water] at nohit nomiss
    simp only [at'_put f within, different, ↓reduceIte] at nohit nomiss
    exact ⟨nohit, nomiss⟩
  · obtain ⟨g, shot, marked⟩ := registerShot_damaged f point whole
    rw [shot] at nohit nomiss
    rcases marked other inside with kept | ⟨_, missed⟩
    · rw [at'_put f within, if_neg different] at kept
      rw [kept] at nohit nomiss
      exact ⟨nohit, nomiss⟩
    · exact absurd missed nomiss

def untriedCells (f : GameField) : Finset (Fin fldSz × Fin fldSz) :=
  Finset.univ.filter fun cell => f.Untried ⟨(cell.2.val : Int), (cell.1.val : Int)⟩

theorem registerShot_fewer {f : GameField} {point : Point} (untried : f.Untried point) :
    (f.registerShot point).2.untriedCells.card < f.untriedCells.card := by
  obtain ⟨y, x, rfl⟩ := inside_iff.mp untried.1
  refine Finset.card_lt_card (Finset.ssubset_iff_of_subset ?_ |>.mpr ⟨(y, x), ?_, ?_⟩)
  · intro cell member
    simp only [untriedCells, Finset.mem_filter, Finset.mem_univ, true_and] at member ⊢
    exact (registerShot_untried untried member).1
  · simpa [untriedCells] using untried
  · intro member
    simp only [untriedCells, Finset.mem_filter, Finset.mem_univ, true_and] at member
    exact (registerShot_untried untried member).2 rfl

end GameField

def Session.untried (session : Session) : Nat := ∑ i, (session.fields i).untriedCells.card

/-- The numbers that the event of the handler draws do not run out: one of them chooses who
begins, and in `_register_shot` they lead to an untried cell. -/
def Session.Supplied (session : Session) (kind : TimeoutKind) (draws : List Nat) : Prop :=
  (kind = .gameStart → session.state = .waitStart → draws ≠ []) ∧
    (kind = .changeTurn → session.state = .processTurn →
      ∃ point ∈ (session.tries draws).dropLast,
        (session.fields session.enemyIdx).Untried point)

instance (session : Session) (kind : TimeoutKind) (draws : List Nat) :
    Decidable (session.Supplied kind draws) :=
  inferInstanceAs (Decidable (_ ∧ _))

theorem Session.Supplied.enough {session : Session} {kind : TimeoutKind} {draws : List Nat}
    (supplied : session.Supplied kind draws) (expects : session.Expects kind) :
    ¬ session.RunsOut kind draws := by
  rintro (⟨rfl, none⟩ | ⟨rfl, exhausted⟩)
  · exact supplied.1 rfl expects none
  · obtain ⟨point, drawn, untried⟩ := supplied.2 rfl expects
    exact Session.registerShot_returns drawn untried exhausted

/-- A handler counts for more than what it may register, a change of the turn together with
the cell that it tries. -/
def TimeoutKind.weight : TimeoutKind → Nat
  | .preparation => 6
  | .checkStartFields => 5
  | .gameStart => 4
  | .gameTurn => 3
  | .changeTurn => 2
  | .endGame => 1

theorem TimeoutKind.weight_leadsTo {kind kind' : TimeoutKind} (leads : kind' ∈ kind.leadsTo) :
    kind'.weight < kind.weight + if kind = .changeTurn then 2 else 0 := by
  revert leads
  cases kind <;> cases kind' <;> decide

namespace Room

theorem registerShot_fewer {session session' : Session} {draws : List Nat} {shotRes : CellState}
    (shot : session.registerShot draws = some (shotRes, session')) :
    session'.untried < session.untried := by
  obtain ⟨point, field, untried, registered, rfl, _⟩ := Session.registerShot_spec shot
  have fewer := GameField.registerShot_fewer untried
  rw [registered] at fewer
  refine Finset.sum_lt_sum (fun i _ => ?_) ⟨session.enemyIdx, Finset.mem_univ _, ?_⟩
  · by_cases enemy : i = session.enemyIdx
    · subst enemy
      simpa using fewer.le
    · simp [enemy]
  · simpa using fewer

/-- What the event of a handler does to the fields: nothing, or one shot. Only with a shot
does a change of the turn register a handler. -/
theorem Step.untried {kind : TimeoutKind} {draws : List Nat} {room room' : Room}
    (step : Step (.fire kind draws) room room') :
    (room'.session.untried = room.session.untried ∧
      (kind = .changeTurn → room'.pending ⊆ room.pending)) ∨
    (kind = .changeTurn ∧ room'.session.untried < room.session.untried) := by
  cases step with
  | expire => exact .inl ⟨rfl, fun _ p member => member.1⟩
  | stopPreparation | fieldsAccepted | startGame | endTurn | endGame => exact .inl ⟨rfl, nofun⟩
  | oneLeft | noneLeft =>
      refine .inl ⟨?_, nofun⟩
      simp [Session.untried, evictInvalid_fields]
  | gameOver pending state shot => exact .inr ⟨rfl, registerShot_fewer shot⟩
  | changeTurn pending state shot =>
      refine .inr ⟨rfl, ?_⟩
      have fewer := registerShot_fewer shot
      simpa [Session.untried] using fewer

end Room

namespace Server

def untried (srv : Server) : Nat := ∑ s ∈ Finset.range gameCount, (srv.sessions s).untried

theorem timer_untried {srv srv' : Server} (inv : srv.Inv) {h : Handler}
    (member : h ∈ srv.timeoutHandlers) {sec usec : Int} {now : Int64} {draws : List Nat}
    (done : srv.step (.timer h.id sec usec now draws) = .ok srv') :
    (srv'.untried = srv.untried ∧ (h.kind = .changeTurn →
      (srv'.room h.session).pending ⊆ (srv.room h.session).pending)) ∨
    (h.kind = .changeTurn ∧ srv'.untried < srv.untried) := by
  rw [step_timer inv.sound.handlers member] at done
  -- A handler that does not fire changes its own timer and nothing else.
  by_cases fired : (h.timer.process sec usec).1 = true
  · obtain ⟨room', step, shows_⟩ := (processTimeout_fired inv member fired now draws).elim done
    rw [← shows_.here] at step
    have elsewhere (s : SessionId) (other : s ≠ h.session) : srv'.sessions s = srv.sessions s :=
      congrArg Room.session (shows_.others s other)
    have inside : h.session ∈ Finset.range gameCount :=
      Finset.mem_range.mpr (lt_of_lt_of_le (inv.sound.handlers.owner h member) inv.sound.seats.few)
    rcases step.untried with ⟨same, kept⟩ | ⟨kind, fewer⟩
    · refine .inl ⟨Finset.sum_congr rfl fun s _ => ?_, kept⟩
      by_cases here : s = h.session
      · subst here
        exact same
      · rw [elsewhere s here]
    · refine .inr ⟨kind, Finset.sum_lt_sum (fun s _ => ?_) ⟨_, inside, fewer⟩⟩
      by_cases here : s = h.session
      · subst here
        exact fewer.le
      · rw [elsewhere s here]
  · rw [processTimeout_eq] at done
    obtain ⟨srv₁, processed, same⟩ := bind_ok done
    obtain rfl := Except.ok.inj same
    unfold processHandler at processed
    simp only [fired, Bool.false_eq_true, ↓reduceIte, Except.ok.injEq] at processed
    obtain rfl := processed
    refine .inl ⟨rfl, fun _ => ?_⟩
    rw [room_dropElapsed]
    rintro ⟨id, kind⟩ ⟨h', changed, rfl, rfl, owned, live⟩
    obtain ⟨h₀, old, rfl⟩ := mem_setTimer.mp changed
    split_ifs at owned live ⊢ with hit
    · refine ⟨h₀, old, rfl, rfl, owned, ?_⟩
      obtain rfl := inv.sound.handlers.unique h₀ old h member hit
      by_contra ended
      have ended : h₀.timer.elapsed = true := by simpa using ended
      simp [Handler.elapsed, TimeoutHandler.process, ended] at live
    · exact ⟨h₀, old, rfl, rfl, owned, live⟩

end Server

namespace Timers

def waiting (timers : Timers) : List Handler :=
  timers.srv.timeoutHandlers.drop timers.tmp.length

def potential (timers : Timers) : Nat :=
  (timers.waiting.map fun h => h.kind.weight).sum + 2 * timers.srv.untried

theorem Takes.waiting {timers timers' : Timers} {sec usec : Int} {now : Int64}
    {draws : List Nat} {h after : Handler} {before todo rest : List Handler}
    (takes : timers.Takes sec usec now draws timers' h after before todo rest) :
    timers.waiting = h :: todo ∧ timers'.waiting = rest ∧
      ∀ h₀ ∈ rest, h₀ ∈ timers'.srv.timeoutHandlers := by
  have length : timers.tmp.length = before.length := by rw [← takes.tmp, List.length_map]
  have outcome := takes.outcome.2.2
  unfold Timers.waiting
  refine ⟨by rw [takes.split, length, List.drop_left], ?_⟩
  split_ifs at outcome
  · obtain ⟨objects, tmp, _⟩ := outcome
    rw [objects, tmp, length, List.drop_left]
    exact ⟨rfl, fun h₀ member => List.mem_append_right _ member⟩
  · obtain ⟨objects, tmp, _⟩ := outcome
    have split : before ++ after :: rest = (before ++ [after]) ++ rest := by simp
    rw [objects, tmp, split, List.drop_left' (by simp [length])]
    exact ⟨rfl, fun h₀ member => List.mem_append_right _ member⟩

theorem Takes.potential {timers timers' : Timers} (inv : timers.Inv) {sec usec : Int}
    {now : Int64} {draws : List Nat} {h after : Handler} {before todo rest : List Handler}
    (takes : timers.Takes sec usec now draws timers' h after before todo rest) :
    timers'.potential < timers.potential := by
  obtain ⟨waiting, waiting', alive⟩ := takes.waiting
  obtain ⟨kind, stopped, tail, _, leads, _⟩ := takes.new
  have member : h ∈ timers.srv.timeoutHandlers := by simp [takes.split]
  have left : (todo.map (Handler.halt stopped)).map (fun h => h.kind.weight) =
      todo.map fun h => h.kind.weight := by
    rw [List.map_map]
    exact List.map_congr_left fun h₀ _ => congrArg TimeoutKind.weight (h₀.halt_kind stopped)
  have weights : (rest.map fun h => h.kind.weight).sum =
      (todo.map fun h => h.kind.weight).sum + (kind.map TimeoutKind.weight).getD 0 := by
    rw [tail, List.map_append, List.sum_append, left]
    cases kind <;> simp [Server.enrolled]
  have positive : 0 < h.kind.weight := by cases h.kind <;> decide
  have moved := Server.timer_untried inv.inv member takes.step
  unfold Timers.potential
  rw [waiting, waiting', weights, List.map_cons, List.sum_cons]
  cases registered : kind with
  | none =>
      have fewer : timers'.srv.untried ≤ timers.srv.untried := by
        rcases moved with ⟨same, _⟩ | ⟨_, less⟩
        · exact same.le
        · exact less.le
      simp only [Option.map_none, Option.getD_none]
      omega
  | some k =>
      have bound := TimeoutKind.weight_leadsTo (leads k registered)
      simp only [Option.map_some, Option.getD_some]
      rcases moved with ⟨same, kept⟩ | ⟨turn, less⟩
      · -- without a shot, a change of the turn registers nothing
        have other : h.kind ≠ .changeTurn := by
          intro turn
          have enrolled : timers.srv.enrolled h.session k ∈ rest := by
            rw [tail, registered]
            simp
          have pending : (timers.srv.nextHandler, k) ∈ (timers'.srv.room h.session).pending := by
            refine ⟨_, alive _ enrolled, rfl, rfl, rfl, ?_⟩
            simp [Handler.elapsed, TimeoutHandler.elapsed, Server.enrolled, k.duration_pos]
          obtain ⟨h₀, old, id, _⟩ := kept turn pending
          exact absurd (inv.inv.sound.handlers.known h₀ old) (by simp [id])
        rw [if_neg other] at bound
        omega
      · rw [if_pos turn] at bound
        omega

/-- The next turn of the loop is given numbers enough. -/
def Supplied (timers : Timers) (turn : Turn) : Prop :=
  ∀ h ∈ timers.srv.timeoutHandlers, timers.handlers.head? = some h.id →
    (h.timer.process turn.sec turn.usec).1 = true →
      (timers.srv.sessions h.session).Supplied h.kind (turn.draws h.id)

instance (timers : Timers) (turn : Turn) : Decidable (timers.Supplied turn) :=
  inferInstanceAs (Decidable (∀ h ∈ timers.srv.timeoutHandlers, _ → _ → _))

/-- The loop of the pass comes from the first state to the second. -/
inductive Loops (turn : Turn) : Timers → Timers → Prop where
  | here {timers : Timers} : Loops turn timers timers
  | turn {timers timers₁ timers₂ : Timers} {id : HandlerId} {ids : List HandlerId}
      (handlers : timers.handlers = id :: ids)
      (taken : timers.takeTurn turn.sec turn.usec (turn.clock id) (turn.draws id) = .ok timers₁)
      (rest : Loops turn timers₁ timers₂) : Loops turn timers timers₂

theorem takeTurn_returns {timers : Timers} (inv : timers.Inv) {turn : Turn}
    (supplied : timers.Supplied turn) {id : HandlerId} {ids : List HandlerId}
    (handlers : timers.handlers = id :: ids) :
    ∃ timers', timers.takeTurn turn.sec turn.usec (turn.clock id) (turn.draws id) =
      .ok timers' := by
  obtain ⟨before, h, todo, split, _, rfl, _⟩ := inv.split handlers
  have member : h ∈ timers.srv.timeoutHandlers := by simp [split]
  obtain ⟨srv', done⟩ := Server.processTimeout_returns inv.inv member (turn.clock h.id)
    fun fired expects => (supplied h member (by simp [handlers]) fired).enough expects
  have same := takeTurn_srv inv member handlers turn.sec turn.usec (turn.clock h.id)
    (turn.draws h.id)
  rw [done] at same
  obtain ⟨timers', taken, _⟩ := ok_of_map Timers.srv same
  exact ⟨timers', taken⟩

theorem drain_returns {timers : Timers} (inv : timers.Inv) (busy : timers.passed ≠ none)
    {turn : Turn} (supplied : ∀ timers₁, Loops turn timers timers₁ → timers₁.Supplied turn)
    {fuel : Nat} (enough : timers.potential < fuel) :
    ∃ timers', timers.drain turn.sec turn.usec turn.clock turn.draws fuel = .ok timers' := by
  induction fuel generalizing timers with
  | zero => cases enough
  | succ fuel ih =>
      unfold drain
      cases handlers : timers.handlers with
      | nil => exact ⟨timers, rfl⟩
      | cons id ids =>
          obtain ⟨timers₁, taken⟩ := takeTurn_returns inv (supplied timers .here) handlers
          obtain ⟨h, after, before, todo, rest, takes⟩ := takeTurn_takes inv taken
          have lower := takes.potential inv
          obtain ⟨timers', ended⟩ := ih (takes.inv inv busy) (by rwa [takes.outcome.2.1])
            (fun timers₂ loops => supplied timers₂ (.turn handlers taken loops)) (by omega)
          refine ⟨timers', ?_⟩
          simpa [attempt, taken, Except.mapError, Bind.bind, Except.bind] using ended

theorem processTimeouts_returns {timers : Timers} (inv : timers.Inv) {turn : Turn}
    (supplied : ∀ timers₁, Loops turn { timers with passed := some (turn.sec, turn.usec) } timers₁ →
      timers₁.Supplied turn) {fuel : Nat} (enough : timers.potential < fuel) :
    ∃ timers', timers.processTimeouts turn.sec turn.usec turn.clock turn.draws fuel =
      .ok timers' := by
  unfold processTimeouts
  split_ifs with empty
  · exact ⟨timers, rfl⟩
  · obtain ⟨timers₁, drained⟩ := drain_returns (inv.pass turn.sec turn.usec) nofun supplied enough
    exact ⟨timers₁.swap, by rw [drained]; rfl⟩

def handler? (timers : Timers) (id : HandlerId) : Option Handler :=
  (timers.srv.timeoutHandlers ++ timers.deleted).find? fun h => h.id = id

/-- What a pass leaves in the list: of the handlers that were in it and of those that were
registered meanwhile, in this order, the ones that have not elapsed. Nothing else remains
of the handlers. -/
structure Conserved (timers timers' : Timers) : Prop where
  known : ∀ id ∈ timers.handlers ++ timers.srv.registered timers'.srv,
    ∃ h, timers'.handler? id = some h
  kept : timers'.handlers = (timers.handlers ++ timers.srv.registered timers'.srv).filter
    fun id => (timers'.handler? id).any fun h => !h.elapsed
  order : (timers.handlers ++ timers.srv.registered timers'.srv).Pairwise (· < ·)
  alive : timers'.srv.timeoutHandlers.map Handler.id = timers'.handlers

/-- In the middle of a pass that began in `timers`: `gone` are the handlers that it has
deleted, and together with the two lists they are all handlers so far. -/
structure Passing (timers timers' : Timers) (gone : List Handler) : Prop where
  inv : timers'.Inv
  deleted : timers'.deleted = timers.deleted ++ gone
  elapsed : ∀ h ∈ gone, h.elapsed = true
  all : (timers'.tmp ++ timers'.handlers ++ gone.map Handler.id).Perm
    (timers.handlers ++ timers.srv.registered timers'.srv)
  next : timers.srv.nextHandler ≤ timers'.srv.nextHandler

theorem registered_append {srv srv' srv'' : Server} (first : srv.nextHandler ≤ srv'.nextHandler)
    (second : srv'.nextHandler ≤ srv''.nextHandler) :
    srv.registered srv'' = srv.registered srv' ++ srv'.registered srv'' := by
  obtain ⟨m, first⟩ := Nat.exists_eq_add_of_le first
  obtain ⟨n, second⟩ := Nat.exists_eq_add_of_le second
  unfold Server.registered
  rw [second, Nat.add_sub_cancel_left, first, Nat.add_sub_cancel_left, Nat.add_assoc,
    Nat.add_sub_cancel_left, ← List.range'_append_1]

theorem Passing.start {timers : Timers} (inv : timers.Inv) (quiet : timers.passed = none)
    (sec usec : Int) : Passing timers { timers with passed := some (sec, usec) } [] := by
  refine ⟨inv.pass sec usec, by simp, nofun, ?_, le_rfl⟩
  simp [inv.idle quiet, Server.registered]

theorem Passing.takes {timers timers₁ timers₂ : Timers} {gone : List Handler}
    (passing : Passing timers timers₁ gone) (busy : timers₁.passed ≠ none) {sec usec : Int}
    {now : Int64} {draws : List Nat} {h after : Handler} {before todo rest : List Handler}
    (takes : timers₁.Takes sec usec now draws timers₂ h after before todo rest) :
    ∃ gone', Passing timers timers₂ gone' := by
  have inv := passing.inv
  obtain ⟨kind, stopped, tail, next, _⟩ := takes.new
  obtain ⟨handlers, _, outcome⟩ := takes.outcome
  have later : timers₁.srv.nextHandler ≤ timers₂.srv.nextHandler := next ▸ Nat.le_add_right _ _
  have step : timers₁.srv.registered timers₂.srv =
      (kind.map (timers₁.srv.enrolled h.session)).toList.map Handler.id :=
    Server.registered_next next
  have ids : rest.map Handler.id = todo.map Handler.id ++ timers₁.srv.registered timers₂.srv := by
    rw [step, tail, Server.ids_next]
  -- `h` stays among the handlers that are accounted for, and the new ones join them
  have all : (timers₁.tmp ++ h.id :: rest.map Handler.id ++ gone.map Handler.id).Perm
      (timers.handlers ++ timers.srv.registered timers₂.srv) := by
    have grown := passing.all.append_right (timers₁.srv.registered timers₂.srv)
    rw [takes.handlers, List.append_assoc timers.handlers, ← registered_append passing.next later]
      at grown
    refine List.Perm.trans ?_ grown
    rw [ids]
    simp only [List.append_assoc, List.cons_append]
    refine List.Perm.append_left _ (List.Perm.cons _ (List.Perm.append_left _ ?_))
    exact List.perm_append_comm
  split_ifs at outcome with ended
  · obtain ⟨_, tmp, deleted⟩ := outcome
    refine ⟨gone ++ [after], takes.inv inv busy, ?_, ?_, ?_, passing.next.trans later⟩
    · rw [deleted, passing.deleted, List.append_assoc]
    · exact List.forall_mem_append.mpr ⟨passing.elapsed, by simpa using ended⟩
    · refine List.Perm.trans ?_ all
      rw [tmp, handlers, List.map_append, List.map_singleton, takes.same]
      simp only [List.append_assoc, List.cons_append]
      refine List.Perm.append_left _ ?_
      rw [← List.append_assoc]
      exact List.perm_append_singleton _ _
  · obtain ⟨_, tmp, deleted⟩ := outcome
    refine ⟨gone, takes.inv inv busy, deleted.trans passing.deleted, passing.elapsed, ?_,
      passing.next.trans later⟩
    rw [tmp, handlers]
    simpa using all

theorem drain_passing {timers timers₁ timers₂ : Timers} {gone : List Handler}
    (passing : Passing timers timers₁ gone) (busy : timers₁.passed ≠ none) {sec usec : Int}
    {clock : HandlerId → Int64} {draws : HandlerId → List Nat} {fuel : Nat}
    (done : timers₁.drain sec usec clock draws fuel = .ok timers₂) :
    timers₂.handlers = [] ∧ ∃ gone', Passing timers timers₂ gone' := by
  induction fuel generalizing timers₁ gone with
  | zero => cases done
  | succ fuel ih =>
      unfold drain at done
      cases handlers : timers₁.handlers with
      | nil =>
          rw [handlers] at done
          obtain rfl := Except.ok.inj done
          exact ⟨handlers, gone, passing⟩
      | cons id ids =>
          rw [handlers] at done
          obtain ⟨timers', attempted, rest⟩ := bind_ok done
          obtain ⟨h, after, before, todo, back, takes⟩ :=
            takeTurn_takes passing.inv (Server.attempt_ok attempted)
          obtain ⟨gone', passing'⟩ := passing.takes busy takes
          exact ih passing' (by rwa [takes.outcome.2.1]) rest

theorem Inv.order {timers : Timers} (inv : timers.Inv) (quiet : timers.passed = none)
    (srv' : Server) : (timers.handlers ++ timers.srv.registered srv').Pairwise (· < ·) := by
  have sorted := inv.sorted
  have ids := inv.ids
  rw [inv.idle quiet, List.nil_append] at sorted ids
  refine List.pairwise_append.mpr ⟨sorted, List.pairwise_lt_range', fun id old id' new => ?_⟩
  obtain ⟨h, member, rfl⟩ := List.mem_map.mp (ids ▸ old)
  exact lt_of_lt_of_le (inv.inv.sound.handlers.known h member) (List.mem_range'_1.mp new).1

theorem handler?_alive {timers : Timers} (inv : timers.Inv) {h : Handler}
    (member : h ∈ timers.srv.timeoutHandlers) : timers.handler? h.id = some h := by
  have found : (timers.srv.timeoutHandlers.find? fun h' => h'.id = h.id) = some h := by
    cases result : timers.srv.timeoutHandlers.find? fun h' => h'.id = h.id with
    | none => simpa using List.find?_eq_none.mp result h member
    | some h' =>
        have same : h'.id = h.id := by simpa using List.find?_some result
        rw [inv.inv.sound.handlers.unique h' (List.mem_of_find?_eq_some result) h member same]
  unfold handler?
  rw [List.find?_append, found, Option.some_or]

theorem handler?_deleted {timers : Timers} {h : Handler} (member : h ∈ timers.deleted)
    (gone : h.id ∉ timers.srv.timeoutHandlers.map Handler.id) :
    ∃ h' ∈ timers.deleted, timers.handler? h.id = some h' := by
  have absent : (timers.srv.timeoutHandlers.find? fun h' => h'.id = h.id) = none := by
    refine List.find?_eq_none.mpr fun h' inside => ?_
    simpa using fun same => gone (List.mem_map.mpr ⟨h', inside, same⟩)
  unfold handler?
  rw [List.find?_append, absent, Option.none_or]
  cases result : timers.deleted.find? fun h' => h'.id = h.id with
  | none => simpa using List.find?_eq_none.mp result h member
  | some h' => exact ⟨h', List.mem_of_find?_eq_some result, rfl⟩

/-- The handlers that were deleted in earlier passes have elapsed, too. -/
theorem Passing.conserved {timers timers' : Timers} {gone : List Handler} (inv : timers.Inv)
    (quiet : timers.passed = none) (before : ∀ h ∈ timers.deleted, h.elapsed = true)
    (passing : Passing timers timers' gone) (drained : timers'.handlers = []) :
    timers.Conserved timers'.swap := by
  have order := inv.order quiet timers'.srv
  have all := passing.all
  have ids := passing.inv.ids
  have sorted := passing.inv.sorted
  rw [drained, List.append_nil] at all ids sorted
  -- No number is both kept and deleted: together they are the numbers so far,
  -- each of them once.
  have apart : ∀ id ∈ timers'.tmp, id ∉ gone.map Handler.id := by
    have distinct := all.symm.nodup (order.imp fun less => ne_of_lt less)
    exact fun id left right => List.disjoint_of_nodup_append distinct left right
  have deleted : ∀ h ∈ timers'.deleted, h.elapsed = true := by
    rw [passing.deleted]
    exact List.forall_mem_append.mpr ⟨before, passing.elapsed⟩
  have alive (id : HandlerId) (member : id ∈ timers'.tmp) :
      ∃ h, timers'.handler? id = some h ∧ h.elapsed = false := by
    obtain ⟨h, inside, rfl⟩ := List.mem_map.mp (ids ▸ member)
    exact ⟨h, handler?_alive passing.inv inside, passing.inv.running h inside member⟩
  have elapsed (id : HandlerId) (member : id ∈ gone.map Handler.id) :
      ∃ h, timers'.handler? id = some h ∧ h.elapsed = true := by
    obtain ⟨h, inside, rfl⟩ := List.mem_map.mp member
    obtain ⟨h', old, found⟩ := handler?_deleted
      (passing.deleted ▸ List.mem_append_right _ inside) (ids ▸ fun left => apart _ left member)
    exact ⟨h', found, deleted h' old⟩
  refine ⟨fun id member => ?_, ?_, order, ids⟩
  · rcases List.mem_append.mp (all.mem_iff.mpr member) with left | right
    · exact (alive id left).imp fun h known => known.1
    · exact (elapsed id right).imp fun h known => known.1
  · have kept := all.filter fun id => (timers'.handler? id).any fun h => !h.elapsed
    have left : timers'.tmp.filter (fun id => (timers'.handler? id).any fun h => !h.elapsed) =
        timers'.tmp := by
      refine List.filter_eq_self.mpr fun id member => ?_
      obtain ⟨h, found, live⟩ := alive id member
      simp [found, live]
    have right : (gone.map Handler.id).filter
        (fun id => (timers'.handler? id).any fun h => !h.elapsed) = [] := by
      refine List.filter_eq_nil_iff.mpr fun id member => ?_
      obtain ⟨h, found, ended⟩ := elapsed id member
      simp [found, ended]
    rw [List.filter_append, left, right, List.append_nil] at kept
    -- Two ascending lists with the same members are equal.
    exact kept.eq_of_pairwise (fun _ _ _ _ less less' => absurd less (lt_asymm less'))
      sorted (order.filter _)

theorem processTimeouts_conserved {timers timers' : Timers} (inv : timers.Inv)
    (quiet : timers.passed = none) (before : ∀ h ∈ timers.deleted, h.elapsed = true)
    {sec usec : Int} {clock : HandlerId → Int64} {draws : HandlerId → List Nat} {fuel : Nat}
    (done : timers.processTimeouts sec usec clock draws fuel = .ok timers') :
    timers.Conserved timers' := by
  have passing := Passing.start inv quiet sec usec
  unfold processTimeouts at done
  split_ifs at done with empty
  · obtain rfl := Except.ok.inj done
    have same : Timers.swap { timers with passed := some (sec, usec) } = timers := by
      have tmp := inv.idle quiet
      cases timers
      simp_all [Timers.swap]
    have conserved := passing.conserved inv quiet before empty
    rwa [same] at conserved
  · obtain ⟨timers₁, drained, same⟩ := bind_ok done
    obtain rfl := Except.ok.inj same
    obtain ⟨handlers, gone, passing'⟩ := drain_passing passing (by simp) drained
    exact passing'.conserved inv quiet before handlers

theorem deleted_elapsed {ticks : List TimerTick} {timers : Timers}
    (done : run init ticks = .ok timers) : ∀ h ∈ timers.deleted, h.elapsed = true := by
  refine run_history step (fun _ timers => ∀ h ∈ timers.deleted, h.elapsed = true)
    (by simp [init]) ?_ done
  intro ticks timers tick timers' before ih stepped
  cases tick with
  | event e =>
      simp only [step] at stepped
      split_ifs at stepped
      obtain ⟨srv', _, same⟩ := bind_ok stepped
      obtain rfl := Except.ok.inj same
      exact ih
  | pass sec usec =>
      simp only [step] at stepped
      split_ifs at stepped
      obtain rfl := Except.ok.inj stepped
      exact ih
  | turn now draws =>
      simp only [step] at stepped
      split at stepped
      · cases stepped
      · obtain ⟨h, after, _, _, _, takes⟩ := takeTurn_takes (run_inv before) stepped
        have outcome := takes.outcome.2.2
        split_ifs at outcome with ended
        · rw [outcome.2.2]
          exact List.forall_mem_append.mpr ⟨ih, by simpa using ended⟩
        · rw [outcome.2.2]
          exact ih
  | swap =>
      simp only [step] at stepped
      split_ifs at stepped
      obtain rfl := Except.ok.inj stepped
      exact ih

/-- The tick triggers the event of the handler. -/
def Fires (timers : Timers) (tick : TimerTick) (id : HandlerId) : Prop :=
  ∃ now draws sec usec rest h, tick = .turn now draws ∧ timers.passed = some (sec, usec) ∧
    timers.handlers = id :: rest ∧ timers.srv.handler? id = some h ∧
    (h.timer.process sec usec).1 = true

def Stops (timers : Timers) (tick : TimerTick) (id : HandlerId) : Prop :=
  ∃ call, timers.EndsTurn tick call ∧ (call.srv.sessions call.s).state = .gameTurn ∧
    (call.srv.sessions call.s).turnTimeout = some id

end Timers

namespace Server

def Spent (srv : Server) (id : HandlerId) : Prop :=
  id < srv.nextHandler ∧ ∀ h ∈ srv.timeoutHandlers, h.id = id → h.elapsed = true

theorem Spent.arms {srv srv' : Server} {id : HandlerId} (spent : srv.Spent id)
    (arms : srv.Arms srv') : srv'.Spent id := by
  refine ⟨lt_of_lt_of_le spent.1 arms.next, fun h' member same => ?_⟩
  rcases arms.handlers h' member with ⟨h, old, id', _, timer⟩ | ⟨low, _⟩
  · have ended := spent.2 h old (id'.symm.trans same)
    rcases timer with kept | stopped
    · rwa [Handler.elapsed, kept]
    · simp [Handler.elapsed, stopped]
  · exact absurd spent.1 (Nat.not_lt.mpr (same ▸ low))

theorem Spent.filter {srv : Server} {id : HandlerId} (spent : srv.Spent id)
    (keep : Handler → Bool) :
    Spent { srv with timeoutHandlers := srv.timeoutHandlers.filter keep } id :=
  ⟨spent.1, fun h member => spent.2 h (List.mem_of_mem_filter member)⟩

theorem step_spent {srv srv' : Server} (inv : srv.Inv) {e : Event} {id : HandlerId}
    (spent : srv.Spent id) (done : srv.step e = .ok srv') : srv'.Spent id := by
  cases e with
  | accept | message | broken => exact spent.arms (step_arms inv.sound rfl done)
  | timer id' sec usec now draws =>
      simp only [step] at done
      split at done
      · cases done
      · rename_i h found
        obtain ⟨srv₁, leaves, rfl⟩ := (srv.processTimeout_comes h sec usec now draws).elim done
        refine Spent.filter (Spent.arms ?_ leaves.arms) _
        refine ⟨spent.1, fun h' member same => ?_⟩
        obtain ⟨h₀, old, rfl⟩ := mem_setTimer.mp member
        split_ifs at same ⊢ with hit
        · have ended : h.timer.elapsed = true :=
            spent.2 h (List.mem_of_find?_eq_some found) (hit.symm.trans same)
          simp [Handler.elapsed, TimeoutHandler.process, ended]
        · exact spent.2 h₀ old same

theorem endTurn_spent {srv srv' : Server} {s : SessionId} {t : HandlerId} (last : srv.TurnLast)
    (turn : (srv.sessions s).state = .gameTurn) (running : (srv.sessions s).turnTimeout = some t)
    (done : srv.endTurn s = .ok srv') : srv'.Spent t := by
  rcases (srv.endTurn_stops s).elim done with ⟨other, _⟩ | ⟨_, enrolls⟩
  · exact absurd turn other
  · refine ⟨lt_of_lt_of_le (last s t running).1 (enrolls.next ▸ Nat.le_add_right _ _), ?_⟩
    intro h member same
    rw [enrolls.handlers, running] at member
    obtain ⟨h₀, _, rfl⟩ := List.mem_map.mp member
    rw [Handler.halt_id] at same
    simp [Handler.halt, same, Handler.elapsed]

end Server

namespace Timers

theorem step_spent {timers timers' : Timers} (inv : timers.Inv) {tick : TimerTick}
    {id : HandlerId} (spent : timers.srv.Spent id) (done : timers.step tick = .ok timers') :
    timers'.srv.Spent id := by
  rcases step_srv inv done with same | ⟨e, stepped⟩
  · rwa [same]
  · exact Server.step_spent inv.inv spent stepped

theorem fires_not_spent {timers : Timers} {tick : TimerTick} {id : HandlerId}
    (fires : timers.Fires tick id) : ¬ timers.srv.Spent id := by
  intro spent
  obtain ⟨_, _, sec, usec, _, h, _, _, _, found, fired⟩ := fires
  have same : h.id = id := by simpa using List.find?_some found
  have live := (TimeoutHandler.process_fired fired).1
  cases live.symm.trans (spent.2 h (List.mem_of_find?_eq_some found) same)

theorem fires_spent {timers timers' : Timers} (inv : timers.Inv) {tick : TimerTick}
    {id : HandlerId} (fires : timers.Fires tick id) (done : timers.step tick = .ok timers') :
    timers'.srv.Spent id := by
  obtain ⟨now, draws, sec, usec, rest, h, rfl, passed, handlers, found, fired⟩ := fires
  simp only [step, passed] at done
  obtain ⟨h', after, before, todo, back, takes⟩ := takeTurn_takes inv done
  have same : h'.id = id := (List.cons.inj (takes.handlers.symm.trans handlers)).1
  have member : h' ∈ timers.srv.timeoutHandlers := by simp [takes.split]
  obtain rfl : h = h' := by
    refine inv.inv.sound.handlers.unique h (List.mem_of_find?_eq_some found) h' member ?_
    rw [same]
    simpa using List.find?_some found
  obtain ⟨kind, stopped, _, next, _⟩ := takes.new
  refine ⟨lt_of_lt_of_le (same ▸ inv.inv.sound.handlers.known h member)
    (next ▸ Nat.le_add_right _ _), fun h₀ inside same' => ?_⟩
  -- it was deleted, and the others have other numbers
  have outcome := takes.outcome.2.2
  rw [if_pos (takes.fired fired)] at outcome
  rw [outcome.1] at inside
  obtain ⟨_, ordered, apart⟩ := List.pairwise_append.mp (takes.sorted inv)
  rcases List.mem_append.mp inside with left | right
  · have tmp : h₀.id ∈ timers.tmp := takes.tmp ▸ List.mem_map_of_mem left
    exact absurd (same'.trans same.symm) (apart _ tmp _ List.mem_cons_self).ne
  · have later := (List.pairwise_cons.mp ordered).1 _ (List.mem_map_of_mem right)
    exact absurd (same'.trans same.symm) later.ne'

theorem stops_spent {timers timers' : Timers} (inv : timers.Inv) {tick : TimerTick}
    {id : HandlerId} (stops : timers.Stops tick id) (done : timers.step tick = .ok timers') :
    timers'.srv.Spent id := by
  obtain ⟨call, ends, turn, running⟩ := stops
  have last : call.srv.TurnLast := by
    cases ends with
    | @move c msg now s x y session outside sender body playing set =>
        have still := (timers.srv.setLastShot_still c set).enrolls s
        exact inv.last.enrolls inv.inv.sound.handlers still
    | timer => exact inv.last.setTimer _ _
  obtain ⟨rest, first, frame⟩ := ends.first
  rw [first] at done
  obtain ⟨srv₁, ended, later⟩ := bind_ok done
  have spent := Server.endTurn_spent last turn running ended
  obtain ⟨next, left⟩ := frame srv₁ timers' later
  exact ⟨next ▸ spent.1, fun h member => spent.2 h (left member)⟩

theorem spent_silent {timers : Timers} (inv : timers.Inv) {id : HandlerId}
    (spent : timers.srv.Spent id) (ticks : List TimerTick) :
    AllSteps step (fun timers tick => ¬ timers.Fires tick id) timers ticks := by
  induction ticks generalizing timers with
  | nil => trivial
  | cons tick ticks ih =>
      refine ⟨fun fires => fires_not_spent fires spent, fun timers' stepped => ?_⟩
      exact ih (step_inv inv stepped) (step_spent inv spent stepped)

end Timers

/-- In every state outside of a pass, whatever time passes, the pass ends if each shot comes to
an untried cell; it is the pass of the main cycle and so many ticks, and it leaves exactly
the handlers that have not elapsed, in the order of their registration. And a handler that
has fired or was stopped, in a pass or between two, never fires afterwards. -/
theorem timer_pass_conserves {ticks : List TimerTick} {timers : Timers}
    (ran : Timers.run Timers.init ticks = .ok timers) :
    (timers.passed = none → ∃ enough, ∀ (turn : Turn) (fuel : Nat), enough ≤ fuel →
      (∀ timers₁, Timers.Loops turn { timers with passed := some (turn.sec, turn.usec) } timers₁ →
        timers₁.Supplied turn) →
      ∃ timers',
        timers.processTimeouts turn.sec turn.usec turn.clock turn.draws fuel = .ok timers' ∧
        timers.Conserved timers' ∧
        Server.processTimeouts turn fuel 0 timers.srv = .ok timers'.srv ∧
        ∃ turns, (∀ tick ∈ turns, ∃ now draws, tick = .turn now draws) ∧
          Timers.run timers (.pass turn.sec turn.usec :: turns ++ [.swap]) = .ok timers') ∧
    ∀ tick id timers', (timers.Fires tick id ∨ timers.Stops tick id) →
      timers.step tick = .ok timers' → ∀ later,
        AllSteps Timers.step (fun timers tick => ¬ timers.Fires tick id) timers' later := by
  have inv := Timers.run_inv ran
  constructor
  · intro quiet
    refine ⟨timers.potential + 1, fun turn fuel enough supplied => ?_⟩
    obtain ⟨timers', done⟩ := Timers.processTimeouts_returns inv supplied enough
    have same := Timers.processTimeouts_srv inv quiet turn (Nat.zero_lt_of_lt enough)
    rw [done] at same
    exact ⟨timers', done,
      Timers.processTimeouts_conserved inv quiet (Timers.deleted_elapsed ran) done,
      same.symm, Timers.processTimeouts_run inv quiet done⟩
  · intro tick id timers' event stepped later
    have spent : timers'.srv.Spent id :=
      event.elim (fun fires => Timers.fires_spent inv fires stepped)
        fun stops => Timers.stops_spent inv stops stepped
    exact Timers.spent_silent (Timers.step_inv inv stepped) spent later

theorem Timers.Loops.next {turn : Turn} {ticks : List TimerTick}
    {timers timers₁ timers₂ : Timers} {id : HandlerId} {ids : List HandlerId}
    (ran : Timers.run Timers.init ticks = .ok timers)
    (passed : timers.passed = some (turn.sec, turn.usec)) (handlers : timers.handlers = id :: ids)
    (next : Timers.run Timers.init (ticks ++ [.turn (turn.clock id) (turn.draws id)]) =
      .ok timers₁)
    (loops : Timers.Loops turn timers timers₂) :
    timers₂ = timers ∨ Timers.Loops turn timers₁ timers₂ := by
  cases loops with
  | here => exact .inl rfl
  | turn handlers' taken rest =>
      obtain ⟨rfl, rfl⟩ := List.cons.inj (handlers.symm.trans handlers')
      have stepped := run_last Timers.step ran next
      simp only [Timers.step, passed, taken] at stepped
      exact .inr (Except.ok.inj stepped ▸ rest)

/-- Three seconds pass; the numbers of each event would be 0 and 0. -/
def threeSeconds : Turn where
  readyWrite _ := false
  result := 0
  ready := ⟨0, [], []⟩
  sec := 3
  usec := 0
  clock _ := 0
  draws _ := [0, 0]
  accepted := none
  input _ := .messages []

def movedTicks : List TimerTick :=
  openingTicks ++ [.event (.message 0 ⟨3, .gameMove 3 4⟩ 0)]

theorem movedTicks_supplied {timers timers₁ : Timers}
    (ran : Timers.run Timers.init movedTicks = .ok timers)
    (loops : Timers.Loops threeSeconds { timers with passed := some (3, 0) } timers₁) :
    timers₁.Supplied threeSeconds := by
  have seen (turns : List TimerTick) (handlers : List HandlerId)
      (shown : (Timers.run Timers.init (movedTicks ++ .pass 3 0 :: turns)).map
        (fun timers => (timers.passed, timers.handlers, decide (timers.Supplied threeSeconds))) =
          .ok (some (3, 0), handlers, true)) :
      ∃ timers, Timers.run Timers.init (movedTicks ++ .pass 3 0 :: turns) = .ok timers ∧
        timers.passed = some (3, 0) ∧ timers.handlers = handlers ∧
        timers.Supplied threeSeconds := by
    obtain ⟨timers, ran, known⟩ := ok_of_map _ shown
    obtain ⟨passed, handlers, supplied⟩ : _ ∧ _ ∧ _ := by simpa using known
    exact ⟨timers, ran, passed, handlers, supplied⟩
  -- the handler that was stopped, the shot, and the handler of the next turn
  obtain ⟨first, ran₀, passed₀, handlers₀, supplied₀⟩ :=
    seen [] [3, 4] (by decide +kernel)
  obtain ⟨second, ran₁, passed₁, handlers₁, supplied₁⟩ :=
    seen [.turn 0 [0, 0]] [4] (by decide +kernel)
  obtain ⟨third, ran₂, passed₂, handlers₂, supplied₂⟩ :=
    seen [.turn 0 [0, 0], .turn 0 [0, 0]] [5] (by decide +kernel)
  obtain ⟨last, ran₃, passed₃, handlers₃, supplied₃⟩ :=
    seen [.turn 0 [0, 0], .turn 0 [0, 0], .turn 0 [0, 0]] [] (by decide +kernel)
  have begun : { timers with passed := some (3, 0) } = first := by
    have stepped := run_last Timers.step ran ran₀
    simp only [Timers.step] at stepped
    split_ifs at stepped
    exact Except.ok.inj stepped
  rw [begun] at loops
  rcases loops.next ran₀ passed₀ handlers₀ (by rw [List.append_assoc]; exact ran₁) with rfl | loops
  · exact supplied₀
  rcases loops.next ran₁ passed₁ handlers₁ (by rw [List.append_assoc]; exact ran₂) with rfl | loops
  · exact supplied₁
  rcases loops.next ran₂ passed₂ handlers₂ (by rw [List.append_assoc]; exact ran₃) with rfl | loops
  · exact supplied₂
  cases loops with
  | here => exact supplied₃
  | turn handlers => cases handlers₃.symm.trans handlers

/-- The first player moves in time, so that the handler of his turn never fires; the pass
after three seconds registers his shot. -/
theorem timer_pass_conserves_opening :
    (∃ timers timers' t, Timers.run Timers.init openingTicks = .ok timers ∧
      timers.Stops (.event (.message 0 ⟨3, .gameMove 3 4⟩ 0)) t ∧
      timers.step (.event (.message 0 ⟨3, .gameMove 3 4⟩ 0)) = .ok timers' ∧
      ∀ later, AllSteps Timers.step (fun timers tick => ¬ timers.Fires tick t) timers' later) ∧
    ∃ timers, Timers.run Timers.init movedTicks = .ok timers ∧
      ∃ enough, ∀ fuel, enough ≤ fuel → ∃ timers',
        timers.processTimeouts 3 0 (fun _ => 0) (fun _ => [0, 0]) fuel = .ok timers' ∧
          timers.Conserved timers' ∧
          Server.processTimeouts threeSeconds fuel 0 timers.srv = .ok timers'.srv ∧
          ∃ turns, (∀ tick ∈ turns, ∃ now draws, tick = .turn now draws) ∧
            Timers.run timers (.pass 3 0 :: turns ++ [.swap]) = .ok timers' := by
  obtain ⟨moved, ran, outside⟩ := ok_of_map (fun timers : Timers => timers.passed)
    (show (Timers.run Timers.init movedTicks).map _ = .ok none by decide +kernel)
  constructor
  · obtain ⟨timers, opened, stepped⟩ := (run_snoc_ok Timers.step).mp ran
    obtain ⟨timers₀, opened', seen⟩ := ok_of_map
      (fun timers : Timers => decide (timers.passed = none ∧ timers.srv.gameSessionOf 0 = some 0 ∧
        (timers.srv.sessions 0).state = .gameTurn ∧
        ((timers.srv.sessions 0).setLastShot ⟨3, 4⟩ 0).map (fun session =>
          (session.state, session.turnTimeout)) = some (.gameTurn, some 3)))
      (show (Timers.run Timers.init openingTicks).map _ = .ok true by decide +kernel)
    obtain rfl := Except.ok.inj (opened.symm.trans opened')
    simp only [decide_eq_true_eq, Option.map_eq_some_iff, Prod.mk.injEq] at seen
    obtain ⟨quiet, sender, turn, session, set, state, running⟩ := seen
    have stops : timers.Stops (.event (.message 0 ⟨3, .gameMove 3 4⟩ 0)) 3 :=
      ⟨_, .move quiet sender rfl (.inl turn) set, by simpa [Server.setSession] using state,
        by simpa [Server.setSession] using running⟩
    exact ⟨timers, moved, 3, opened, stops, stepped,
      (timer_pass_conserves opened).2 _ _ _ (.inr stops) stepped⟩
  · obtain ⟨enough, ends⟩ := (timer_pass_conserves ran).1 outside
    exact ⟨moved, ran, enough, fun fuel more =>
      ends threeSeconds fuel more fun _ loops => movedTicks_supplied ran loops⟩

end Battleship
