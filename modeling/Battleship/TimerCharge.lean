import Battleship.Bookkeeping

/-! How much of the passed time each handler has been charged: the accounts of
`_process_timeouts` along the turns of the main cycle. A handler that is registered
while the pass is under way stands in the list which the pass is draining, and is charged
the time that passed before it was there. -/
namespace Battleship

open Runs

/-- A reading of `gettimeofday`, or a difference of two. -/
structure Timeval where
  sec : Int
  usec : Int
  deriving DecidableEq, Repr

def Timeval.micros (t : Timeval) : Int := t.sec * 1000000 + t.usec

def Timeval.Valid (t : Timeval) : Prop := 0 ≤ t.sec ∧ 0 ≤ t.usec ∧ t.usec < 1000000

instance (t : Timeval) : Decidable t.Valid := inferInstanceAs (Decidable (_ ∧ _))

/-- The time that `select` took, as `run` computes it. -/
def passedTime (before after : Timeval) : Timeval :=
  let usec := after.usec - before.usec
  let (sec, usec) :=
    if usec < 0 then
      if after.sec - 1 ≥ 0 then (after.sec - 1, usec + 1000000) else (after.sec - 1, usec)
    else (after.sec, usec)
  ⟨sec - before.sec, usec⟩

theorem passedTime_spec {before after : Timeval} (valid : before.Valid) (valid' : after.Valid)
    (later : before.micros ≤ after.micros) :
    (passedTime before after).Valid ∧
      (passedTime before after).micros = after.micros - before.micros := by
  unfold Timeval.Valid Timeval.micros passedTime at *
  dsimp only
  split_ifs <;> dsimp only <;> omega

namespace TimeoutHandler

def micros (t : TimeoutHandler) : Int := t.sec * 1000000 + t.usec

def Normal (t : TimeoutHandler) : Prop := 0 ≤ t.sec ∧ 0 ≤ t.usec ∧ t.usec < 1000000

theorem Normal.running {t : TimeoutHandler} (normal : t.Normal) :
    t.elapsed = false ↔ 0 < t.micros := by
  unfold Normal micros elapsed at *
  rw [decide_eq_false_iff_not]
  omega

/-- The countdown loses the passed time and stops at zero, where the event happens. -/
theorem process_spec {t : TimeoutHandler} (normal : t.Normal) (running : t.elapsed = false)
    {passed : Timeval} (valid : passed.Valid) :
    (t.process passed.sec passed.usec).2.Normal ∧
      (t.process passed.sec passed.usec).2.micros = max (t.micros - passed.micros) 0 ∧
      ((t.process passed.sec passed.usec).1 = true ↔ t.micros ≤ passed.micros) := by
  have positive := normal.running.mp running
  unfold process
  rw [if_neg (by simp [running])]
  unfold Normal Timeval.Valid micros Timeval.micros elapsed at *
  dsimp only
  rw [decide_eq_true_iff]
  split_ifs <;> dsimp only at * <;> omega

end TimeoutHandler

theorem TimeoutKind.duration_pos (kind : TimeoutKind) : 0 < kind.duration := by
  cases kind <;> decide

def Handler.charged (h : Handler) : Int := h.kind.duration * 1000000 - h.timer.micros

/-- The server in its main cycle. `next` is where the pass of `_process_timeouts` goes on,
none outside of a pass. The handlers from `fresh` on were registered after the last
`select`. `clock` is the time that has passed in all calls of `select`, and `birth` what it
was when the handler was registered. -/
structure Watch where
  srv : Server
  passed : Timeval
  next : Option HandlerId
  fresh : HandlerId
  clock : Int
  birth : HandlerId → Int

/-- What happens next in the main cycle: a call of `select` with the readings of the clock
around it, the next handler of the pass, or after the pass another event. -/
inductive Tick where
  | select (before after : Timeval) (interrupted : Bool)
  | handler (now : Int64) (draws : List Nat)
  | event (e : Server.Event)

def Server.Event.isTimer : Server.Event → Bool
  | .timer .. => true
  | _ => false

namespace Watch

def init : Watch := ⟨Server.init, ⟨0, 0⟩, none, 0, 0, fun _ => 0⟩

def due (watch : Watch) : Option Handler := watch.next.bind watch.srv.nextTimeout

def become (watch : Watch) (srv : Server) (next : Option HandlerId) : Watch :=
  { watch with
    srv := srv
    next := next
    birth := fun id => if id < watch.srv.nextHandler then watch.birth id else watch.clock }

/-- `select` is called when the pass has ended. One that is interrupted by a signal is not
followed by a pass. The clock does not go back while it waits. -/
def step (watch : Watch) : Tick → Except Fault Watch
  | .select before after interrupted =>
      if watch.due = none ∧ before.Valid ∧ after.Valid ∧ before.micros ≤ after.micros then
        .ok { watch with
          passed := passedTime before after
          next := if interrupted then none else some 0
          fresh := watch.srv.nextHandler
          clock := watch.clock + (passedTime before after).micros }
      else .error .notEnabled
  | .handler now draws =>
      match watch.due with
      | none => .error .notEnabled
      | some h => do
          let srv ← watch.srv.processTimeout h watch.passed.sec watch.passed.usec now draws
          .ok (watch.become srv (some (h.id + 1)))
  | .event e =>
      if watch.due = none ∧ e.isTimer = false then do
        let srv ← watch.srv.step e
        .ok (watch.become srv none)
      else .error .notEnabled

abbrev run : Watch → List Tick → Except Fault Watch := Runs.run step

/-- The handler whose turn it is is charged no more than the time that has passed in the
calls of `select` since it was registered, and does not fire before they add up to its
duration. -/
def ChargedFairly (watch : Watch) : Tick → Prop
  | .handler _ _ => ∀ h, watch.due = some h → h.elapsed = false →
      let processed := h.timer.process watch.passed.sec watch.passed.usec
      ({ h with timer := processed.2 }.charged ≤ watch.clock - watch.birth h.id ∧
        (processed.1 = true → h.kind.duration * 1000000 ≤ watch.clock - watch.birth h.id))
  | _ => True

/-- A pass that brings passed time does not come to a running handler that was registered
in it. -/
def RegisteredBefore (watch : Watch) : Tick → Prop
  | .handler _ _ => ∀ h, watch.due = some h → h.elapsed = false →
      h.id < watch.fresh ∨ watch.passed.micros = 0
  | _ => True

/-- The accounts of the running handlers. Those that the pass has still to come to have not
been charged its time. -/
structure Accounts (watch : Watch) (handlers : List Handler) : Prop where
  normal : ∀ h ∈ handlers, h.elapsed = false → h.timer.Normal
  charged : ∀ h ∈ handlers, h.elapsed = false → h.charged ≤ watch.clock - watch.birth h.id
  owed : ∀ next, watch.next = some next → ∀ h ∈ handlers, h.elapsed = false → next ≤ h.id →
    h.id < watch.fresh → h.charged + watch.passed.micros ≤ watch.clock - watch.birth h.id
  new : ∀ h ∈ handlers, h.elapsed = false → watch.fresh ≤ h.id →
    h.charged = 0 ∧ watch.birth h.id = watch.clock

structure Ledger (watch : Watch) : Prop where
  tidy : watch.srv.Tidy
  passed : watch.passed.Valid
  fresh : watch.fresh ≤ watch.srv.nextHandler
  accounts : watch.Accounts watch.srv.timeoutHandlers

theorem due_mem {watch : Watch} {h : Handler} (due : watch.due = some h) :
    h ∈ watch.srv.timeoutHandlers ∧ ∃ next, watch.next = some next ∧ next ≤ h.id := by
  obtain ⟨next, at_next, found⟩ := Option.bind_eq_some_iff.mp due
  exact ⟨List.mem_of_find?_eq_some found, next, at_next, by simpa using List.find?_some found⟩

/-- One turn of the pass is fair exactly when the handler was there before it. -/
theorem chargedFairly_iff {watch : Watch} (ledger : watch.Ledger) (tick : Tick) :
    watch.ChargedFairly tick ↔ watch.RegisteredBefore tick := by
  cases tick with
  | select before after interrupted => exact Iff.rfl
  | event e => exact Iff.rfl
  | handler now draws =>
      refine forall_congr' fun h => forall_congr' fun due => forall_congr' fun live => ?_
      obtain ⟨member, next, at_next, reached⟩ := due_mem due
      have normal := ledger.accounts.normal h member live
      obtain ⟨_, left, fires⟩ := TimeoutHandler.process_spec normal live ledger.passed
      have running := normal.running.mp live
      have long := h.kind.duration_pos
      have passed : 0 ≤ watch.passed.micros := by
        obtain ⟨sec, usec, _⟩ := ledger.passed
        unfold Timeval.micros
        omega
      have account : h.charged = h.kind.duration * 1000000 - h.timer.micros := rfl
      have account' (timer : TimeoutHandler) : { h with timer := timer }.charged =
          h.kind.duration * 1000000 - timer.micros := rfl
      simp only [account', left, fires]
      constructor
      · rintro ⟨fair, _⟩
        by_contra late
        rw [not_or, not_lt] at late
        obtain ⟨nothing, born⟩ := ledger.accounts.new h member live late.1
        omega
      · rintro (old | none)
        · have owed := ledger.accounts.owed next at_next h member live reached old
          omega
        · have charged := ledger.accounts.charged h member live
          omega

end Watch

/-- A running handler is an old one as it was, or a new one that has its whole duration. -/
theorem Server.Arms.running {srv srv' : Server} (arms : srv.Arms srv') {h' : Handler}
    (member : h' ∈ srv'.timeoutHandlers) (live : h'.elapsed = false) :
    (∃ h ∈ srv.timeoutHandlers, h'.id = h.id ∧ h'.kind = h.kind ∧ h'.timer = h.timer) ∨
      srv.nextHandler ≤ h'.id ∧ h'.timer = ⟨h'.kind.duration, 0⟩ := by
  rcases arms.handlers h' member with ⟨h, old, id, kind, same | stopped⟩ | ⟨low, _, whole | done⟩
  · exact .inl ⟨h, old, id, kind, same⟩
  · simp [Handler.elapsed, stopped] at live
  · exact .inr ⟨low, whole⟩
  · cases live.symm.trans done

namespace Watch

theorem Accounts.of_subset {watch : Watch} {handlers handlers' : List Handler}
    (accounts : watch.Accounts handlers) (subset : handlers' ⊆ handlers) :
    watch.Accounts handlers' :=
  ⟨fun h member => accounts.normal h (subset member),
    fun h member => accounts.charged h (subset member),
    fun next at_next h member => accounts.owed next at_next h (subset member),
    fun h member => accounts.new h (subset member)⟩

theorem Accounts.arms {watch : Watch} {srv srv' : Server}
    (accounts : watch.Accounts srv.timeoutHandlers) (arms : srv.Arms srv')
    (fresh : watch.fresh ≤ srv.nextHandler)
    (born : ∀ id, srv.nextHandler ≤ id → watch.birth id = watch.clock) :
    watch.Accounts srv'.timeoutHandlers := by
  have whole {h : Handler} (timer : h.timer = ⟨h.kind.duration, 0⟩) :
      h.timer.Normal ∧ h.charged = 0 := by
    have long := h.kind.duration_pos
    rw [Handler.charged, timer]
    exact ⟨⟨long.le, le_rfl, by norm_num⟩, by simp [TimeoutHandler.micros]⟩
  have account {h h' : Handler} (kind : h'.kind = h.kind) (timer : h'.timer = h.timer) :
      h'.charged = h.charged := by rw [Handler.charged, kind, timer, Handler.charged]
  have running {h h' : Handler} (timer : h'.timer = h.timer) (live : h'.elapsed = false) :
      h.elapsed = false := by rwa [Handler.elapsed, timer] at live
  refine ⟨fun h' member live => ?_, fun h' member live => ?_,
    fun next at_next h' member live reached earlier => ?_, fun h' member live late => ?_⟩
  · rcases arms.running member live with ⟨h, old, id, kind, timer⟩ | ⟨low, timer⟩
    · rw [timer]
      exact accounts.normal h old (running timer live)
    · exact (whole timer).1
  · rcases arms.running member live with ⟨h, old, id, kind, timer⟩ | ⟨low, timer⟩
    · rw [account kind timer, id]
      exact accounts.charged h old (running timer live)
    · rw [(whole timer).2, born _ low, sub_self]
  · rcases arms.running member live with ⟨h, old, id, kind, timer⟩ | ⟨low, timer⟩
    · rw [account kind timer, id]
      exact accounts.owed next at_next h old (running timer live) (id ▸ reached) (id ▸ earlier)
    · exact absurd (lt_of_lt_of_le earlier (fresh.trans low)) (lt_irrefl _)
  · rcases arms.running member live with ⟨h, old, id, kind, timer⟩ | ⟨low, timer⟩
    · rw [account kind timer, id]
      exact accounts.new h old (running timer live) (id ▸ late)
    · exact ⟨(whole timer).2, born _ low⟩

theorem become_birth (watch : Watch) (srv : Server) (next : Option HandlerId) {id : HandlerId}
    (known : id < watch.srv.nextHandler) : (watch.become srv next).birth id = watch.birth id :=
  if_pos known

theorem become_born {watch : Watch} (srv : Server) (next : Option HandlerId) (id : HandlerId)
    (new : watch.srv.nextHandler ≤ id) :
    (watch.become srv next).birth id = (watch.become srv next).clock := if_neg (Nat.not_lt.mpr new)

/-- `select` returns: all handlers are owed the time that has passed. -/
theorem Ledger.select {watch : Watch} (ledger : watch.Ledger) {passed : Timeval}
    (valid : passed.Valid) (next : Option HandlerId) : Ledger { watch with
      passed := passed, next := next, fresh := watch.srv.nextHandler,
      clock := watch.clock + passed.micros } := by
  have time : 0 ≤ passed.micros := by
    have ⟨sec, usec, _⟩ := valid
    unfold Timeval.micros
    omega
  have known := ledger.tidy.inv.sound.handlers.known
  refine ⟨ledger.tidy, valid, le_rfl, ledger.accounts.normal, fun h member live => ?_,
    fun _ _ h member live _ _ => ?_, fun h member live late => ?_⟩
  · have charged := ledger.accounts.charged h member live
    dsimp only
    omega
  · have charged := ledger.accounts.charged h member live
    dsimp only
    omega
  · exact absurd (known h member) (Nat.not_lt.mpr late)

theorem Ledger.event {watch : Watch} (ledger : watch.Ledger) {srv : Server} (tidy : srv.Tidy)
    (arms : watch.srv.Arms srv) : (watch.become srv none).Ledger := by
  have birth {h : Handler} (member : h ∈ watch.srv.timeoutHandlers) :=
    watch.become_birth srv none (ledger.tidy.inv.sound.handlers.known h member)
  have before : (watch.become srv none).Accounts watch.srv.timeoutHandlers := by
    refine ⟨ledger.accounts.normal, fun h member live => ?_, nofun, fun h member live late => ?_⟩
    · rw [birth member]
      exact ledger.accounts.charged h member live
    · rw [birth member]
      exact ledger.accounts.new h member live late
  exact ⟨tidy, ledger.passed, ledger.fresh.trans arms.next,
    before.arms arms ledger.fresh (become_born srv none)⟩

theorem Ledger.handler {watch : Watch} (ledger : watch.Ledger) {now : Int64} {draws : List Nat}
    {h : Handler} (due : watch.due = some h)
    (fair : watch.ChargedFairly (.handler now draws)) {srv : Server}
    (done : watch.srv.processTimeout h watch.passed.sec watch.passed.usec now draws = .ok srv) :
    (watch.become srv (some (h.id + 1))).Ledger := by
  obtain ⟨member, next, at_next, reached⟩ := due_mem due
  obtain ⟨srv₁, leaves, rfl⟩ := (watch.srv.processTimeout_comes h _ _ now draws).elim done
  have stepped := (ledger.tidy.step_timer member _ _ now draws).trans done
  have known := ledger.tidy.inv.sound.handlers.known
  have before := (chargedFairly_iff ledger _).mp fair h due
  refine ⟨Server.step_tidy ledger.tidy stepped, ledger.passed, ledger.fresh.trans leaves.arms.next,
    Accounts.of_subset (Accounts.arms ?_ leaves.arms ledger.fresh (become_born _ _))
      (List.filter_subset_self _)⟩
  -- the handlers before the event: `h` has been charged and the others are as they were
  have birth {h' : Handler} (member : h' ∈ watch.srv.timeoutHandlers) :=
    watch.become_birth (srv₁.dropElapsed h.id) (some (h.id + 1)) (known h' member)
  have cases_ {h' : Handler} (member' : h' ∈ (watch.srv.setTimer h.id
        (h.timer.process watch.passed.sec watch.passed.usec).2).timeoutHandlers) :
      h' = { h with timer := (h.timer.process watch.passed.sec watch.passed.usec).2 } ∨
        h' ∈ watch.srv.timeoutHandlers ∧ h'.id ≠ h.id := by
    obtain ⟨h₀, old, rfl⟩ := Server.mem_setTimer.mp member'
    split_ifs with same
    · obtain rfl := ledger.tidy.inv.sound.handlers.unique h₀ old h member same
      exact .inl rfl
    · exact .inr ⟨old, same⟩
  have running (live' : (h.timer.process watch.passed.sec watch.passed.usec).2.elapsed = false) :
      h.elapsed = false := by
    by_contra stopped
    have stopped : h.timer.elapsed = true := by simpa using stopped
    simp [TimeoutHandler.process, stopped] at live'
  refine ⟨fun h' member' live => ?_, fun h' member' live => ?_,
    fun next' at_next' h' member' live reached' earlier => ?_, fun h' member' live late => ?_⟩
  · rcases cases_ member' with rfl | ⟨old, _⟩
    · have normal := ledger.accounts.normal h member (running live)
      exact (TimeoutHandler.process_spec normal (running live) ledger.passed).1
    · exact ledger.accounts.normal h' old live
  · rcases cases_ member' with rfl | ⟨old, _⟩
    · rw [birth member]
      exact (fair h due (running live)).1
    · rw [birth old]
      exact ledger.accounts.charged h' old live
  · obtain rfl : h.id + 1 = next' := Option.some.inj at_next'
    rcases cases_ member' with rfl | ⟨old, _⟩
    · exact absurd reached' (Nat.not_succ_le_self _)
    · rw [birth old]
      exact ledger.accounts.owed next at_next h' old live
        (reached.trans ((Nat.le_succ _).trans reached')) earlier
  · rcases cases_ member' with rfl | ⟨old, _⟩
    · have normal := ledger.accounts.normal h member (running live)
      obtain ⟨_, left, _⟩ := TimeoutHandler.process_spec normal (running live) ledger.passed
      obtain ⟨nothing, born⟩ := ledger.accounts.new h member (running live) late
      have idle := (before (running live)).resolve_left (Nat.not_lt.mpr late)
      have positive := normal.running.mp (running live)
      refine ⟨?_, by rw [birth member]; exact born⟩
      unfold Handler.charged at nothing ⊢
      dsimp only
      omega
    · rw [birth old]
      exact ledger.accounts.new h' old live late

end Watch

theorem Server.step_arms {srv srv' : Server} (sound : srv.Sound) {e : Event}
    (other : e.isTimer = false) (done : srv.step e = .ok srv') : srv.Arms srv' := by
  cases e with
  | accept =>
      obtain rfl : srv.acceptNewConnection = srv' := Except.ok.inj done
      unfold acceptNewConnection
      split_ifs <;> exact .of_eq rfl rfl
  | message c msg now =>
      by_cases alive : (srv.clients c).isSome
      · simp only [step, alive, ↓reduceIte] at done
        have alive := Option.isSome_iff_ne_none.mp alive
        exact ((processMsg_mingles sound alive msg now).elim done).arms
      · simp [step, alive] at done
  | broken c =>
      by_cases alive : (srv.clients c).isSome
      · simp only [step, alive, ↓reduceIte] at done
        exact ((srv.connBroken_leaves c).elim done).1
      · simp [step, alive] at done
  | timer id sec usec now draws => cases other

namespace Watch

theorem init_ledger : init.Ledger :=
  ⟨(show Server.Reachable Server.init from ⟨[], rfl⟩).tidy, by decide, le_rfl,
    ⟨nofun, nofun, nofun, nofun⟩⟩

theorem step_ledger {watch watch' : Watch} {tick : Tick} (ledger : watch.Ledger)
    (fair : watch.ChargedFairly tick) (done : watch.step tick = .ok watch') : watch'.Ledger := by
  cases tick with
  | select before after interrupted =>
      unfold step at done
      dsimp only at done
      split at done
      · rename_i possible
        obtain ⟨_, valid, valid', later⟩ := possible
        obtain rfl := Except.ok.inj done
        exact ledger.select (passedTime_spec valid valid' later).1 _
      · cases done
  | handler now draws =>
      cases due : watch.due with
      | none => simp [step, due] at done
      | some h =>
          simp only [step, due] at done
          obtain ⟨srv, processed, same⟩ := bind_ok done
          obtain rfl := Except.ok.inj same
          exact ledger.handler due fair processed
  | event e =>
      simp only [step] at done
      split_ifs at done with possible
      obtain ⟨srv, stepped, same⟩ := bind_ok done
      obtain rfl := Except.ok.inj same
      exact ledger.event (Server.step_tidy ledger.tidy stepped)
        (Server.step_arms ledger.tidy.inv.sound possible.2 stepped)

theorem processTimeouts_run {turn : Turn} {fuel : Nat} {next : HandlerId} {srv' : Server}
    {watch : Watch} (at_next : watch.next = some next)
    (passed : watch.passed = ⟨turn.sec, turn.usec⟩)
    (done : Server.processTimeouts turn fuel next watch.srv = .ok srv') :
    ∃ ticks watch', (∀ tick ∈ ticks, ∃ now draws, tick = .handler now draws) ∧
      run watch ticks = .ok watch' ∧ watch'.srv = srv' ∧ watch'.due = none := by
  induction fuel generalizing next watch with
  | zero => cases done
  | succ fuel ih =>
      have due : watch.due = watch.srv.nextTimeout next := by simp [Watch.due, at_next]
      unfold Server.processTimeouts at done
      cases found : watch.srv.nextTimeout next with
      | none =>
          rw [found] at done
          exact ⟨[], watch, nofun, rfl, Except.ok.inj done, due.trans found⟩
      | some h =>
          rw [found] at done
          obtain ⟨srv₁, attempted, rest⟩ := bind_ok done
          have processed := Server.attempt_ok attempted
          have stepped : watch.step (.handler (turn.clock h.id) (turn.draws h.id)) =
              .ok (watch.become srv₁ (some (h.id + 1))) := by
            simp [step, due, found, passed, processed, Bind.bind, Except.bind]
          obtain ⟨ticks, watch', turns, ran, same, ended⟩ :=
            @ih _ (watch.become srv₁ (some (h.id + 1))) rfl passed rest
          refine ⟨_ :: ticks, watch', ?_, (run_cons_ok _ stepped).mpr ran, same, ended⟩
          exact List.forall_mem_cons.mpr ⟨⟨_, _, rfl⟩, turns⟩

end Watch

/-- In every run no handler is charged time from before its registration, nor fires before
its duration has passed, exactly when no pass that brings time comes to a handler that was
registered in it. -/
theorem charged_fairly_iff (ticks : List Tick) :
    AllSteps Watch.step Watch.ChargedFairly Watch.init ticks ↔
      AllSteps Watch.step Watch.RegisteredBefore Watch.init ticks :=
  allSteps_congr Watch.step Watch.Ledger
    (fun _ tick ledger => Watch.chargedFairly_iff ledger tick)
    (fun _ _ _ ledger fair done => Watch.step_ledger ledger fair done) Watch.init_ledger

/-! Two clients ask for a session and 71 seconds pass, one in each turn of the main cycle.
The 70 seconds of the preparation end in the last turn but one, whose pass also comes to the
handler of the field check that has just been registered for two seconds. -/

def secondWaits : List Tick := [.select ⟨0, 0⟩ ⟨1, 0⟩ false, .handler 0 []]

def hurriedCheck : List Tick :=
  [.event .accept, .event .accept, .event (.message 0 ⟨1, .gameSessionReq⟩ 0),
    .event (.message 1 ⟨1, .gameSessionReq⟩ 0)] ++
    (List.replicate 70 secondWaits).flatten ++ [.handler 0 [], .select ⟨0, 0⟩ ⟨1, 0⟩ false]

/-- The field check happens one second after it was registered. -/
theorem field_check_early : ¬ ∀ ticks : List Tick,
    AllSteps Watch.step Watch.ChargedFairly Watch.init ticks := by
  intro fair
  obtain ⟨watch, ran, seen⟩ := ok_of_map
    (fun watch : Watch => (watch.due.map fun h => (h.id, h.kind, h.timer), watch.passed,
      watch.clock - watch.birth 1))
    (show (Watch.run Watch.init hurriedCheck).map _ =
      .ok (some (1, .checkStartFields, ⟨1, 0⟩), ⟨1, 0⟩, 1000000) by decide +kernel)
  simp only [Prod.mk.injEq] at seen
  obtain ⟨due, passed, since⟩ := seen
  obtain ⟨h, due, shown⟩ := Option.map_eq_some_iff.mp due
  simp only [Prod.mk.injEq] at shown
  obtain ⟨id, kind, timer⟩ := shown
  have last := ((AllSteps.snoc Watch.step ran).mp (fair (hurriedCheck ++ [.handler 0 []]))).2 h due
  rw [timer, passed, id, since, kind] at last
  exact absurd ((last (by simp [Handler.elapsed, timer, TimeoutHandler.elapsed])).2 (by decide))
    (by decide)

end Battleship
