import Battleship.Enrollment
import Battleship.StaleTimers

/-! `_process_timeouts` with its two lists. The pass takes every pointer out of
`timeout_handlers`, into which the events put the handlers that they register, and keeps
in `tmp` those that have not elapsed; at the end the lists are swapped. A turn of its loop
is the timer event of the server. -/
namespace Battleship

open Runs SlotTable

namespace Server

def processHandler (srv : Server) (handler : Handler) (sec usec : Int) (now : Int64)
    (draws : List Nat) : Except Fault Server :=
  let processed := handler.timer.process sec usec
  let srv := srv.setTimer handler.id processed.2
  if processed.1 then srv.timeoutEvent handler.kind handler.session now draws else .ok srv

def handler? (srv : Server) (id : HandlerId) : Option Handler :=
  srv.timeoutHandlers.find? fun h => h.id = id

def deleteHandler (srv : Server) (id : HandlerId) : Server :=
  { srv with timeoutHandlers := srv.timeoutHandlers.filter fun h => h.id ≠ id }

/-- The numbers of the handlers that were registered on the way to `srv'`. -/
def registered (srv srv' : Server) : List HandlerId :=
  List.range' srv.nextHandler (srv'.nextHandler - srv.nextHandler)

end Server

/-- The server with the list `timeout_handlers` and the list `tmp` of the running pass, if
there is one. The `timeoutHandlers` of `srv` are the handlers that are not deleted, wherever
they are; `deleted` are the others, as they were then. -/
structure Timers where
  srv : Server
  handlers : List HandlerId
  tmp : List HandlerId
  passed : Option (Int × Int)
  deleted : List Handler

/-- What happens next: an event that is no timer, the call of `_process_timeouts`, one turn
of its loop, or the swap of the lists behind the loop. -/
inductive TimerTick where
  | event (e : Server.Event)
  | pass (sec usec : Int)
  | turn (now : Int64) (draws : List Nat)
  | swap

namespace Timers

def init : Timers := ⟨Server.init, [], [], none, []⟩

/-- One turn of the loop. -/
def takeTurn (timers : Timers) (sec usec : Int) (now : Int64) (draws : List Nat) :
    Except Fault Timers :=
  match timers.handlers with
  | [] => .error .notEnabled
  | id :: rest =>
      match timers.srv.handler? id with
      | none => .error .danglingTimeout
      | some h => do
          let srv ← timers.srv.processHandler h sec usec now draws
          let handlers := rest ++ timers.srv.registered srv
          match srv.handler? id with
          | none => .error .danglingTimeout
          | some h =>
              if !h.elapsed then
                .ok { timers with srv := srv, handlers := handlers, tmp := timers.tmp ++ [id] }
              else
                .ok { timers with
                  srv := srv.deleteHandler id
                  handlers := handlers
                  deleted := timers.deleted ++ [h] }

/-- The list is not empty when the loop begins; the turns take it from there. -/
def drain (sec usec : Int) (clock : HandlerId → Int64) (draws : HandlerId → List Nat) :
    Nat → Timers → Except (Stop Fault) Timers
  | 0, _ => .error .outOfFuel
  | fuel + 1, timers =>
      match timers.handlers with
      | [] => .ok timers
      | id :: _ => do
          let timers ← attempt (timers.takeTurn sec usec (clock id) (draws id))
          drain sec usec clock draws fuel timers

/-- `timeout_handlers.swap(tmp)`; what `tmp` holds then is cleared. -/
def swap (timers : Timers) : Timers :=
  { timers with handlers := timers.tmp, tmp := [], passed := none }

def processTimeouts (timers : Timers) (sec usec : Int) (clock : HandlerId → Int64)
    (draws : HandlerId → List Nat) (fuel : Nat) : Except (Stop Fault) Timers :=
  if timers.handlers = [] then .ok timers
  else do
    let timers ← drain sec usec clock draws fuel { timers with passed := some (sec, usec) }
    .ok timers.swap

def step (timers : Timers) : TimerTick → Except Fault Timers
  | .event e =>
      if timers.passed = none ∧ e.isTimer = false then do
        let srv ← timers.srv.step e
        .ok { timers with
          srv := srv, handlers := timers.handlers ++ timers.srv.registered srv }
      else .error .notEnabled
  | .pass sec usec =>
      if timers.passed = none then .ok { timers with passed := some (sec, usec) }
      else .error .notEnabled
  | .turn now draws =>
      match timers.passed with
      | none => .error .notEnabled
      | some (sec, usec) => timers.takeTurn sec usec now draws
  | .swap =>
      if timers.passed ≠ none ∧ timers.handlers = [] then .ok timers.swap
      else .error .notEnabled

abbrev run : Timers → List TimerTick → Except Fault Timers := Runs.run step

end Timers

namespace Server

/-- The handler that a session has learnt for its turn is the last one registered for a
turn of it. -/
def TurnLast (srv : Server) : Prop :=
  ∀ s t, (srv.sessions s).turnTimeout = some t → t < srv.nextHandler ∧
    ∀ h ∈ srv.timeoutHandlers, h.kind = .gameTurn → h.session = s → h.id ≤ t

theorem init_turnLast : init.TurnLast := nofun

theorem TurnLast.enrolls {srv srv' : Server} (last : srv.TurnLast) (handlers : srv.Handlers)
    {s : SessionId} {kind : Option TimeoutKind} {stopped : Option HandlerId}
    (enrolls : Enrolls s kind stopped srv srv') : srv'.TurnLast := by
  have next : srv.nextHandler ≤ srv'.nextHandler := enrolls.next ▸ Nat.le_add_right _ _
  intro r t running
  -- what the session knew before, or the handler of the new turn
  have bound : t < srv'.nextHandler ∧ (∀ h ∈ srv.timeoutHandlers, h.kind = .gameTurn →
      h.session = r → h.id ≤ t) ∧ (r = s → kind = some .gameTurn → t = srv.nextHandler) := by
    have new (same : r = s) (turn : kind = some .gameTurn) : t = srv.nextHandler := by
      subst same
      exact Option.some.inj (running.symm.trans (enrolls.turn turn).2)
    rcases enrolls.kept r t running with kept | ⟨same, turn⟩
    · exact ⟨lt_of_lt_of_le (last r t kept).1 next, (last r t kept).2, new⟩
    · obtain rfl := new same turn
      refine ⟨?_, fun h member _ _ => (handlers.known h member).le, new⟩
      rw [enrolls.next, turn]
      exact Nat.lt_succ_self _
  refine ⟨bound.1, fun h member turn owned => ?_⟩
  rw [enrolls.handlers] at member
  obtain ⟨h₀, inside, rfl⟩ := List.mem_map.mp member
  rw [Handler.halt_kind] at turn
  rw [Handler.halt_session] at owned
  rw [Handler.halt_id]
  rcases List.mem_append.mp inside with old | new
  · exact bound.2.1 h₀ old turn owned
  · obtain ⟨k, known, rfl⟩ := Option.map_eq_some_iff.mp (Option.mem_toList.mp new)
    obtain rfl : k = .gameTurn := turn
    exact (bound.2.2 owned.symm known).ge

theorem TurnLast.setTimer {srv : Server} (last : srv.TurnLast) (id : HandlerId)
    (timer : TimeoutHandler) : (srv.setTimer id timer).TurnLast := by
  intro r t running
  refine ⟨(last r t running).1, fun h member turn owned => ?_⟩
  obtain ⟨h₀, old, rfl⟩ := mem_setTimer.mp member
  split_ifs at * <;> exact (last r t running).2 h₀ old turn owned

theorem TurnLast.filter {srv : Server} (last : srv.TurnLast) (keep : Handler → Bool) :
    TurnLast { srv with timeoutHandlers := srv.timeoutHandlers.filter keep } :=
  fun r t running => ⟨(last r t running).1,
    fun h member => (last r t running).2 h (List.mem_of_mem_filter member)⟩

theorem processTimeout_eq (srv : Server) (handler : Handler) (sec usec : Int) (now : Int64)
    (draws : List Nat) : srv.processTimeout handler sec usec now draws =
      srv.processHandler handler sec usec now draws >>= fun srv' =>
        .ok (srv'.dropElapsed handler.id) := by
  unfold processTimeout processHandler
  dsimp only
  split_ifs <;> rfl

/-- What a timer event does: the countdown of the handler goes on, its event changes the
handlers of its session, and it goes if it has elapsed. -/
theorem step_timer_enrolls {srv srv' : Server} {id : HandlerId} {sec usec : Int} {now : Int64}
    {draws : List Nat} (done : srv.step (.timer id sec usec now draws) = .ok srv') :
    ∃ (h : Handler) (srv₁ : Server), EnrollsIn h.session h.kind.leadsTo
        (srv.setTimer h.id (h.timer.process sec usec).2) srv₁ ∧ srv' = srv₁.dropElapsed h.id := by
  simp only [step] at done
  split at done
  · cases done
  · rename_i h found
    rw [processTimeout_eq] at done
    obtain ⟨srv₁, processed, same⟩ := bind_ok done
    refine ⟨h, srv₁, ?_, (Except.ok.inj same).symm⟩
    unfold processHandler at processed
    dsimp only at processed
    split at processed
    · exact (timeoutEvent_enrolls _ h.session h.kind now draws).elim processed
    · obtain rfl := Except.ok.inj processed
      exact (Still.refl _).enrollsIn _ _

theorem step_turnLast {srv srv' : Server} {e : Event} (handlers : srv.Handlers)
    (last : srv.TurnLast) (done : srv.step e = .ok srv') : srv'.TurnLast := by
  cases e with
  | accept | message | broken =>
      obtain ⟨s, kind, stopped, enrolls, _⟩ := step_enrolls rfl done
      exact last.enrolls handlers enrolls
  | timer id sec usec now draws =>
      obtain ⟨h, srv₁, ⟨kind, stopped, enrolls, _⟩, rfl⟩ := step_timer_enrolls done
      exact ((last.setTimer _ _).enrolls (handlers.setTimer _ _) enrolls).filter _

/-- Only the event that registers the handler of a turn begins one. -/
theorem step_turns {srv srv' : Server} {e : Event} (done : srv.step e = .ok srv') (s : SessionId)
    (turn : (srv'.sessions s).state = .gameTurn) {t : HandlerId}
    (running : (srv'.sessions s).turnTimeout = some t) :
    ((srv.sessions s).state = .gameTurn ∧ (srv.sessions s).turnTimeout = some t) ∨
      ((srv.sessions s).state ≠ .gameTurn ∧ t = srv.nextHandler ∧ t < srv'.nextHandler) := by
  have changes {srv₀ srv₁ : Server} {r : SessionId} {kind : Option TimeoutKind}
      {stopped : Option HandlerId} (enrolls : Enrolls r kind stopped srv₀ srv₁)
      (turn : (srv₁.sessions s).state = .gameTurn)
      (running : (srv₁.sessions s).turnTimeout = some t) :
      ((srv₀.sessions s).state = .gameTurn ∧ (srv₀.sessions s).turnTimeout = some t) ∨
        ((srv₀.sessions s).state ≠ .gameTurn ∧ t = srv₀.nextHandler ∧ t < srv₁.nextHandler) := by
    -- A session whose turn began in this event knows the handler that the event registered.
    have begins (here : s = r) (new : kind = some .gameTurn) :
        (srv₀.sessions s).state ≠ .gameTurn ∧ t = srv₀.nextHandler ∧ t < srv₁.nextHandler := by
      subst here
      obtain ⟨other, timeout⟩ := enrolls.turn new
      obtain rfl := Option.some.inj (running.symm.trans timeout)
      refine ⟨other, rfl, ?_⟩
      rw [enrolls.next, new]
      exact Nat.lt_succ_self _
    rcases enrolls.begun s turn with before | ⟨here, new⟩
    · rcases enrolls.kept s t running with kept | ⟨here, new⟩
      · exact .inl ⟨before, kept⟩
      · exact .inr (begins here new)
    · exact .inr (begins here new)
  cases e with
  | accept | message | broken =>
      obtain ⟨r, kind, stopped, enrolls, _⟩ := step_enrolls rfl done
      exact changes enrolls turn running
  | timer id sec usec now draws =>
      obtain ⟨h, srv₁, ⟨kind, stopped, enrolls, _⟩, rfl⟩ := step_timer_enrolls done
      have moved := changes enrolls turn running
      exact moved

theorem registered_next {s : SessionId} {kind : Option TimeoutKind} {srv srv' : Server}
    (next : srv'.nextHandler = srv.nextHandler + kind.toList.length) :
    srv.registered srv' = (kind.map (srv.enrolled s)).toList.map Handler.id := by
  unfold Server.registered
  rw [next, Nat.add_sub_cancel_left]
  cases kind <;> simp [enrolled]

theorem Enrolls.registered {s : SessionId} {kind : Option TimeoutKind}
    {stopped : Option HandlerId} {srv srv' : Server} (enrolls : Enrolls s kind stopped srv srv') :
    srv.registered srv' = (kind.map (srv.enrolled s)).toList.map Handler.id :=
  registered_next enrolls.next

/-- The numbers of the handlers that follow in the list after an event. -/
theorem ids_next (srv : Server) (s : SessionId) (kind : Option TimeoutKind)
    (stopped : Option HandlerId) (todo : List Handler) :
    (todo.map (Handler.halt stopped) ++ (kind.map (srv.enrolled s)).toList).map Handler.id =
      todo.map Handler.id ++ (kind.map (srv.enrolled s)).toList.map Handler.id := by
  rw [List.map_append, List.map_map]
  congr 1
  exact List.map_congr_left fun h _ => h.halt_id stopped

/-- In a list in the order of registration the numbers before a handler are smaller than
its own and those behind it greater. -/
theorem order_split {handlers before todo : List Handler} {h : Handler}
    (sorted : (handlers.map Handler.id).Pairwise (· < ·)) (split : handlers = before ++ h :: todo) :
    (∀ h₀ ∈ before, h₀.id < h.id) ∧ ∀ h₀ ∈ todo, h.id < h₀.id := by
  rw [split, List.map_append, List.map_cons] at sorted
  obtain ⟨_, ordered, apart⟩ := List.pairwise_append.mp sorted
  constructor
  · intro h₀ member
    exact apart _ (List.mem_map_of_mem member) _ List.mem_cons_self
  · intro h₀ member
    exact (List.pairwise_cons.mp ordered).1 _ (List.mem_map_of_mem member)

/-- The handlers with smaller numbers are not stopped when `h` is processed. -/
theorem processHandler_spec {srv srv' : Server} (last : srv.TurnLast)
    {h : Handler} {before todo : List Handler} (split : srv.timeoutHandlers = before ++ h :: todo)
    (sorted : (srv.timeoutHandlers.map Handler.id).Pairwise (· < ·)) {sec usec : Int}
    {now : Int64} {draws : List Nat}
    (done : srv.processHandler h sec usec now draws = .ok srv') : ∃ kind stopped,
      Enrolls h.session kind stopped (srv.setTimer h.id (h.timer.process sec usec).2) srv' ∧
      srv'.timeoutHandlers = before ++
        Handler.halt stopped { h with timer := (h.timer.process sec usec).2 } ::
          (todo.map (Handler.halt stopped) ++ (kind.map (srv.enrolled h.session)).toList) ∧
      (∀ k, kind = some k → k ∈ h.kind.leadsTo) ∧
      ((h.timer.process sec usec).1 = false → kind = none ∧ stopped = none) := by
  obtain ⟨earlier, later⟩ := order_split sorted split
  have timed : (srv.setTimer h.id (h.timer.process sec usec).2).timeoutHandlers =
      before ++ { h with timer := (h.timer.process sec usec).2 } :: todo := by
    have kept {hs : List Handler} (other : ∀ h₀ ∈ hs, h₀.id ≠ h.id) : hs.map (fun h₀ =>
        if h₀.id = h.id then { h₀ with timer := (h.timer.process sec usec).2 } else h₀) = hs :=
      (List.map_congr_left fun h₀ member => if_neg (other h₀ member)).trans (List.map_id _)
    show srv.timeoutHandlers.map _ = _
    rw [split, List.map_append, List.map_cons, if_pos rfl]
    rw [kept fun h₀ member => (earlier h₀ member).ne, kept fun h₀ member => (later h₀ member).ne']
  have event : EnrollsIn h.session (if (h.timer.process sec usec).1 then h.kind.leadsTo else [])
      (srv.setTimer h.id (h.timer.process sec usec).2) srv' ∧
      ((h.timer.process sec usec).1 = false →
        srv' = srv.setTimer h.id (h.timer.process sec usec).2) := by
    unfold processHandler at done
    dsimp only at done
    split at done
    · rename_i fired
      simp only [fired, ↓reduceIte, Bool.true_eq_false, false_implies, and_true]
      exact (timeoutEvent_enrolls _ h.session h.kind now draws).elim done
    · rename_i silent
      obtain rfl := Except.ok.inj done
      simp only [silent, Bool.false_eq_true, ↓reduceIte, implies_true, and_true]
      exact (Still.refl _).enrollsIn _ _
  obtain ⟨⟨kind, stopped, enrolls, inside⟩, silent⟩ := event
  have kinds (k : TimeoutKind) (new : kind = some k) :
      (h.timer.process sec usec).1 = true ∧ k ∈ h.kind.leadsTo := by
    have member := inside k new
    split_ifs at member with fired
    · exact ⟨fired, member⟩
    · cases member
  -- only the handler of the turn that ends is stopped, and none of the turn comes behind it
  have above {t : HandlerId} (stop : stopped = some t) : h.id ≤ t ∧ t < srv.nextHandler := by
    obtain ⟨ends, _, running⟩ := enrolls.stops t stop
    have turn : h.kind = .gameTurn := by
      have member := (kinds _ ends).2
      cases kind : h.kind <;> simp [kind, TimeoutKind.leadsTo] at member ⊢
    obtain ⟨known, bound⟩ := last h.session t running
    exact ⟨bound h (by simp [split]) turn rfl, known⟩
  refine ⟨kind, stopped, enrolls, ?_, fun k new => (kinds k new).2, fun quiet => ?_⟩
  · have same : (srv.setTimer h.id (h.timer.process sec usec).2).enrolled h.session =
        srv.enrolled h.session := rfl
    have kept {hs : List Handler} (free : ∀ h₀ ∈ hs, some h₀.id ≠ stopped) :
        hs.map (Handler.halt stopped) = hs :=
      (List.map_congr_left fun h₀ member => Handler.halt_other (free h₀ member)).trans (List.map_id _)
    rw [enrolls.handlers, timed, same]
    simp only [List.map_append, List.map_cons, List.append_assoc, List.cons_append]
    have front : before.map (Handler.halt stopped) = before := kept fun h₀ member stop =>
      absurd (above stop.symm).1 (Nat.not_le.mpr (earlier h₀ member))
    have back : (kind.map (srv.enrolled h.session)).toList.map (Handler.halt stopped) =
        (kind.map (srv.enrolled h.session)).toList := by
      refine kept fun h₀ member stop => ?_
      obtain ⟨k, _, rfl⟩ := Option.map_eq_some_iff.mp (Option.mem_toList.mp member)
      exact absurd (above stop.symm).2 (lt_irrefl _)
    rw [front, back]
  · have none : kind = none := by
      refine Option.eq_none_iff_forall_ne_some.mpr fun k new => ?_
      cases (kinds k new).1.symm.trans quiet
    refine ⟨none, Option.eq_none_iff_forall_ne_some.mpr fun t stop => ?_⟩
    cases none.symm.trans (enrolls.stops t stop).1

end Server

namespace Timers

/-- The two lists hold every handler that is not deleted, in the order of registration, and
`tmp` none that has elapsed. -/
structure Inv (timers : Timers) : Prop where
  inv : timers.srv.Inv
  last : timers.srv.TurnLast
  ids : timers.srv.timeoutHandlers.map Handler.id = timers.tmp ++ timers.handlers
  sorted : (timers.tmp ++ timers.handlers).Pairwise (· < ·)
  running : ∀ h ∈ timers.srv.timeoutHandlers, h.id ∈ timers.tmp → h.elapsed = false
  idle : timers.passed = none → timers.tmp = []

/-- One turn of the loop: `h` is taken out between the handlers before it, which stand in
`tmp`, and those that follow, and is kept or deleted as `after`. -/
structure Takes (timers : Timers) (sec usec : Int) (now : Int64) (draws : List Nat)
    (timers' : Timers) (h after : Handler) (before todo rest : List Handler) : Prop where
  split : timers.srv.timeoutHandlers = before ++ h :: todo
  tmp : before.map Handler.id = timers.tmp
  handlers : timers.handlers = h.id :: todo.map Handler.id
  same : after.id = h.id
  step : timers.srv.step (.timer h.id sec usec now draws) = .ok timers'.srv
  fired : (h.timer.process sec usec).1 = true → after.elapsed = true
  new : ∃ kind stopped, rest = todo.map (Handler.halt stopped) ++
      (kind.map (timers.srv.enrolled h.session)).toList ∧
    timers'.srv.nextHandler = timers.srv.nextHandler + kind.toList.length ∧
    (∀ k, kind = some k → k ∈ h.kind.leadsTo) ∧
    ((h.timer.process sec usec).1 = false → kind = none ∧ stopped = none)
  outcome : timers'.handlers = rest.map Handler.id ∧ timers'.passed = timers.passed ∧
    if after.elapsed then
      timers'.srv.timeoutHandlers = before ++ rest ∧ timers'.tmp = timers.tmp ∧
        timers'.deleted = timers.deleted ++ [after]
    else
      timers'.srv.timeoutHandlers = before ++ after :: rest ∧
        timers'.tmp = timers.tmp ++ [h.id] ∧ timers'.deleted = timers.deleted

theorem Inv.sorted_ids {timers : Timers} (inv : timers.Inv) :
    (timers.srv.timeoutHandlers.map Handler.id).Pairwise (· < ·) := by
  rw [inv.ids]
  exact inv.sorted

theorem Inv.split {timers : Timers} (inv : timers.Inv) {id : HandlerId} {ids : List HandlerId}
    (handlers : timers.handlers = id :: ids) : ∃ before h todo,
      timers.srv.timeoutHandlers = before ++ h :: todo ∧ before.map Handler.id = timers.tmp ∧
      h.id = id ∧ todo.map Handler.id = ids := by
  obtain ⟨before, back, split, tmp, order⟩ := List.map_eq_append_iff.mp inv.ids
  obtain ⟨h, todo, rfl, same, rest⟩ := List.map_eq_cons_iff.mp (order.trans handlers)
  exact ⟨before, h, todo, split, tmp, same, rest⟩

theorem handler?_split {srv : Server} {h : Handler} {before todo : List Handler}
    (split : srv.timeoutHandlers = before ++ h :: todo)
    (fresh : ∀ h₀ ∈ before, h₀.id ≠ h.id) : srv.handler? h.id = some h := by
  unfold Server.handler?
  rw [split, List.find?_append, List.find?_eq_none.mpr fun h₀ member => by simpa using fresh h₀ member]
  simp

theorem filter_split {before rest : List Handler} {after : Handler} (keep : Handler → Bool)
    (others : ∀ h ∈ before ++ rest, keep h = true) :
    (before ++ after :: rest).filter keep =
      if keep after then before ++ after :: rest else before ++ rest := by
  have kept (hs : List Handler) (all : ∀ h ∈ hs, keep h = true) : hs.filter keep = hs :=
    List.filter_eq_self.mpr all
  obtain ⟨left, right⟩ := List.forall_mem_append.mp others
  rw [List.filter_append, List.filter_cons, kept before left, kept rest right]
  split_ifs <;> rfl

/-- What processing the handler leaves in the list: it is found where it was, `after`, and
its number is no other one's. -/
theorem Inv.processed {timers : Timers} (inv : timers.Inv) {h : Handler}
    {before todo : List Handler} (split : timers.srv.timeoutHandlers = before ++ h :: todo)
    {sec usec : Int} {now : Int64} {draws : List Nat} {srv' : Server}
    (done : timers.srv.processHandler h sec usec now draws = .ok srv') :
    ∃ kind stopped after back,
      srv'.timeoutHandlers = before ++ after :: back ∧ after.id = h.id ∧
      (∀ h₀ ∈ before ++ back, h₀.id ≠ h.id) ∧
      ((h.timer.process sec usec).1 = true → after.elapsed = true) ∧
      back = todo.map (Handler.halt stopped) ++
        (kind.map (timers.srv.enrolled h.session)).toList ∧
      srv'.nextHandler = timers.srv.nextHandler + kind.toList.length ∧
      (∀ k, kind = some k → k ∈ h.kind.leadsTo) ∧
      ((h.timer.process sec usec).1 = false → kind = none ∧ stopped = none) := by
  obtain ⟨smaller, greater⟩ := Server.order_split inv.sorted_ids split
  have here : h ∈ timers.srv.timeoutHandlers := by simp [split]
  obtain ⟨kind, stopped, enrolls, found, inside, silent⟩ :=
    Server.processHandler_spec inv.last split inv.sorted_ids done
  refine ⟨kind, stopped, _, _, found, Handler.halt_id _ _, fun h₀ member => ?_, fun fires => ?_,
    rfl, enrolls.next, inside, silent⟩
  · rcases List.mem_append.mp member with front | back
    · exact (smaller h₀ front).ne
    · rcases List.mem_append.mp back with old | new
      · obtain ⟨h₁, behind, rfl⟩ := List.mem_map.mp old
        rw [Handler.halt_id]
        exact (greater h₁ behind).ne'
      · obtain ⟨k, _, rfl⟩ := Option.map_eq_some_iff.mp (Option.mem_toList.mp new)
        exact (inv.inv.sound.handlers.known h here).ne'
  · have ended := (TimeoutHandler.process_fired fires).2
    rw [Handler.halt]
    split_ifs
    · exact TimeoutHandler.stop_elapsed (h.timer.process sec usec).2
    · exact ended

/-- Of the handlers `process_timeout` drops the one that was processed, if it has elapsed. -/
theorem dropElapsed_split {srv' : Server} {h after : Handler} {before back : List Handler}
    (found : srv'.timeoutHandlers = before ++ after :: back) (same : after.id = h.id)
    (others : ∀ h₀ ∈ before ++ back, h₀.id ≠ h.id) :
    srv'.dropElapsed h.id = { srv' with timeoutHandlers :=
      if after.elapsed then before ++ back else before ++ after :: back } := by
  refine congrArg (fun handlers => { srv' with timeoutHandlers := handlers }) ?_
  rw [found, filter_split _ fun h₀ member => by simp [others h₀ member]]
  cases after.elapsed <;> simp [same]

theorem takeTurn_takes {timers timers' : Timers} (inv : timers.Inv) {sec usec : Int}
    {now : Int64} {draws : List Nat} (done : timers.takeTurn sec usec now draws = .ok timers') :
    ∃ h after before todo rest,
      timers.Takes sec usec now draws timers' h after before todo rest := by
  unfold takeTurn at done
  split at done
  · cases done
  rename_i id ids handlers
  obtain ⟨before, h, todo, split, tmp, rfl, rfl⟩ := inv.split handlers
  have earlier (h₀ : Handler) (member : h₀ ∈ before) : h₀.id ≠ h.id :=
    ((Server.order_split inv.sorted_ids split).1 h₀ member).ne
  have here : h ∈ timers.srv.timeoutHandlers := by simp [split]
  rw [handler?_split split earlier] at done
  obtain ⟨srv', processed, rest⟩ := bind_ok done
  obtain ⟨kind, stopped, after, back, found, same, others, fired, tail, next, inside, silent⟩ :=
    inv.processed split processed
  have list : todo.map Handler.id ++ timers.srv.registered srv' = back.map Handler.id := by
    rw [Server.registered_next next, tail, Server.ids_next]
  have dropped := dropElapsed_split found same others
  have stepped : timers.srv.step (.timer h.id sec usec now draws) = .ok (srv'.dropElapsed h.id) := by
    rw [Server.step_timer inv.inv.sound.handlers here, Server.processTimeout_eq, processed]
    rfl
  rw [← same, handler?_split found (by simpa only [same] using earlier)] at rest
  dsimp only at rest
  have turn (timers' : Timers) (srv : timers'.srv = srv'.dropElapsed h.id)
      (outcome : timers'.handlers = back.map Handler.id ∧ timers'.passed = timers.passed ∧
        if after.elapsed then timers'.tmp = timers.tmp ∧ timers'.deleted = timers.deleted ++ [after]
        else timers'.tmp = timers.tmp ++ [h.id] ∧ timers'.deleted = timers.deleted) :
      timers.Takes sec usec now draws timers' h after before todo back := by
    refine ⟨split, tmp, handlers, same, srv ▸ stepped, fired, ⟨kind, stopped, tail, ?_, inside,
      silent⟩, outcome.1, outcome.2.1, ?_⟩
    · rw [srv]
      exact next
    · rw [srv, dropped]
      have ends := outcome.2.2
      split_ifs at ends ⊢ <;> exact ⟨rfl, ends⟩
  refine ⟨h, after, before, todo, back, ?_⟩
  -- the pass keeps the handler in `tmp` exactly where `process_timeout` keeps it in the list
  split_ifs at rest with live
  · obtain rfl := Except.ok.inj rest
    have live : after.elapsed = false := by simpa using live
    refine turn _ ?_ ⟨list, rfl, ?_⟩
    · rw [dropped, live]
      simp [← found]
    · simp [live, same]
  · obtain rfl := Except.ok.inj rest
    have gone : after.elapsed = true := by simpa using live
    refine turn _ ?_ ⟨list, rfl, ?_⟩
    · rw [dropped, gone]
      unfold Server.deleteHandler
      rw [found, filter_split _ fun h₀ member => by simpa [same] using others h₀ member]
      simp
    · simp [gone]

theorem init_inv : init.Inv :=
  ⟨Server.init_inv, Server.init_turnLast, rfl, List.Pairwise.nil, nofun, fun _ => rfl⟩

theorem sorted_snoc {srv : Server} (handlers : srv.Handlers) {ids : List HandlerId}
    (sorted : ids.Pairwise (· < ·)) (known : ∀ id ∈ ids, ∃ h ∈ srv.timeoutHandlers, h.id = id)
    (s : SessionId) (kind : Option TimeoutKind) :
    (ids ++ (kind.map (srv.enrolled s)).toList.map Handler.id).Pairwise (· < ·) := by
  refine List.pairwise_append.mpr ⟨sorted, ?_, fun id member id' new => ?_⟩
  · cases kind <;> simp
  · obtain ⟨h, inside, rfl⟩ := known id member
    cases kind with
    | none => cases new
    | some k =>
        obtain rfl : id' = srv.nextHandler := by simpa [Server.enrolled] using new
        exact handlers.known h inside

theorem Inv.event {timers : Timers} (inv : timers.Inv) {e : Server.Event} {srv' : Server}
    (quiet : timers.passed = none) (other : e.isTimer = false)
    (done : timers.srv.step e = .ok srv') : Inv { timers with
      srv := srv', handlers := timers.handlers ++ timers.srv.registered srv' } := by
  obtain ⟨s, kind, stopped, enrolls, _⟩ := Server.step_enrolls other done
  have empty := inv.idle quiet
  have ids : timers.srv.timeoutHandlers.map Handler.id = timers.handlers := by
    rw [inv.ids, empty, List.nil_append]
  refine ⟨Server.step_inv inv.inv done, Server.step_turnLast inv.inv.sound.handlers inv.last done, ?_, ?_, ?_,
    inv.idle⟩
  · rw [enrolls.handlers, enrolls.registered, empty, List.map_map]
    have same : Handler.id ∘ Handler.halt stopped = Handler.id := by
      funext h
      exact h.halt_id stopped
    rw [same, List.map_append, ids, List.nil_append]
  · rw [enrolls.registered, empty, List.nil_append]
    have sorted := inv.sorted
    rw [empty, List.nil_append] at sorted
    refine sorted_snoc inv.inv.sound.handlers sorted (fun id member => ?_) s kind
    rw [← ids] at member
    exact List.mem_map.mp member
  · intro h _ member
    simp [empty] at member

theorem Takes.sorted {timers timers' : Timers} (inv : timers.Inv) {sec usec : Int} {now : Int64}
    {draws : List Nat} {h after : Handler} {before todo rest : List Handler}
    (takes : timers.Takes sec usec now draws timers' h after before todo rest) :
    (timers.tmp ++ h.id :: rest.map Handler.id).Pairwise (· < ·) := by
  obtain ⟨kind, stopped, tail, _⟩ := takes.new
  have ids := timers.srv.ids_next h.session kind stopped todo
  rw [← tail] at ids
  have whole := sorted_snoc inv.inv.sound.handlers inv.sorted (fun id member => by
    rw [← inv.ids] at member
    exact List.mem_map.mp member) h.session kind
  rw [takes.handlers, List.append_assoc, List.cons_append, ← ids] at whole
  exact whole

theorem Takes.inv {timers timers' : Timers} (inv : timers.Inv) {sec usec : Int} {now : Int64}
    {draws : List Nat} {h after : Handler} {before todo rest : List Handler}
    (takes : timers.Takes sec usec now draws timers' h after before todo rest)
    (busy : timers.passed ≠ none) : timers'.Inv := by
  have tmp := takes.tmp
  obtain ⟨handlers, passed, outcome⟩ := takes.outcome
  have sorted := takes.sorted inv
  -- The handlers before `h` stand in `tmp`, which holds none that has elapsed.
  have live (h₀ : Handler) (member : h₀ ∈ before) : h₀.elapsed = false := by
    refine inv.running h₀ (by simp [takes.split, member]) ?_
    rw [← tmp]
    exact List.mem_map_of_mem member
  obtain ⟨_, ordered, apart⟩ := List.pairwise_append.mp sorted
  have behind (h₀ : Handler) (member : h₀ ∈ rest) : h₀.id ∉ timers.tmp ∧ h₀.id ≠ h.id := by
    have id := List.mem_map_of_mem (f := Handler.id) member
    refine ⟨fun inside => ?_, ((List.pairwise_cons.mp ordered).1 _ id).ne'⟩
    exact absurd (apart _ inside _ (List.mem_cons_of_mem _ id)) (lt_irrefl _)
  have step := takes.step
  -- `h` is deleted, or it moves to `tmp`; the others stay in their order either way.
  split_ifs at outcome with ends
  · obtain ⟨objects, tmp', _⟩ := outcome
    refine ⟨Server.step_inv inv.inv step, Server.step_turnLast inv.inv.sound.handlers inv.last step,
      ?_, ?_, fun h₀ member inside => ?_, fun none => absurd (passed ▸ none) busy⟩
    · rw [objects, List.map_append, tmp, tmp', handlers]
    · rw [tmp', handlers]
      exact sorted.sublist (List.Sublist.append_left (List.sublist_cons_self _ _) _)
    · rw [objects] at member
      rw [tmp'] at inside
      rcases List.mem_append.mp member with old | new
      · exact live h₀ old
      · exact absurd inside (behind h₀ new).1
  · obtain ⟨objects, tmp', _⟩ := outcome
    have running : after.elapsed = false := by simpa using ends
    refine ⟨Server.step_inv inv.inv step, Server.step_turnLast inv.inv.sound.handlers inv.last step,
      ?_, ?_, fun h₀ member inside => ?_, fun none => absurd (passed ▸ none) busy⟩
    · rw [objects, List.map_append, List.map_cons, tmp, tmp', handlers, takes.same,
        List.append_assoc, List.singleton_append]
    · rw [tmp', handlers, List.append_assoc, List.singleton_append]
      exact sorted
    · rw [objects] at member
      rw [tmp'] at inside
      rcases List.mem_append.mp member with old | new
      · exact live h₀ old
      · rcases List.mem_cons.mp new with rfl | new
        · exact running
        · rcases List.mem_append.mp inside with inside | inside
          · exact absurd inside (behind h₀ new).1
          · exact absurd (List.mem_singleton.mp inside) (behind h₀ new).2

theorem Inv.swap {timers : Timers} (inv : timers.Inv) (empty : timers.handlers = []) :
    timers.swap.Inv := by
  have ids := inv.ids
  have sorted := inv.sorted
  rw [empty, List.append_nil] at ids sorted
  exact ⟨inv.inv, inv.last, ids, sorted, nofun, fun _ => rfl⟩

theorem Inv.pass {timers : Timers} (inv : timers.Inv) (sec usec : Int) :
    Inv { timers with passed := some (sec, usec) } :=
  ⟨inv.inv, inv.last, inv.ids, inv.sorted, inv.running, nofun⟩

theorem step_inv {timers timers' : Timers} {tick : TimerTick} (inv : timers.Inv)
    (done : timers.step tick = .ok timers') : timers'.Inv := by
  cases tick with
  | event e =>
      simp only [step] at done
      split_ifs at done with possible
      obtain ⟨srv', stepped, same⟩ := bind_ok done
      obtain rfl := Except.ok.inj same
      exact inv.event possible.1 possible.2 stepped
  | pass sec usec =>
      simp only [step] at done
      split_ifs at done with possible
      obtain rfl := Except.ok.inj done
      exact inv.pass sec usec
  | turn now draws =>
      simp only [step] at done
      split at done
      · cases done
      · rename_i sec usec busy
        obtain ⟨h, after, before, todo, rest, takes⟩ := takeTurn_takes inv done
        exact takes.inv inv (by simp [busy])
  | swap =>
      simp only [step] at done
      split_ifs at done with possible
      obtain rfl := Except.ok.inj done
      exact inv.swap possible.2

theorem run_inv {timers : Timers} {ticks : List TimerTick} (done : run init ticks = .ok timers) :
    timers.Inv :=
  run_invariant step (fun _ _ _ inv stepped => step_inv inv stepped) init_inv done

theorem takeTurn_error {timers : Timers} (inv : timers.Inv) {id : HandlerId}
    {ids : List HandlerId} (handlers : timers.handlers = id :: ids) {sec usec : Int} {now : Int64}
    {draws : List Nat} {fault : Fault}
    (failed : timers.takeTurn sec usec now draws = .error fault) :
    ∃ h ∈ timers.srv.timeoutHandlers, h.id = id ∧
      timers.srv.processHandler h sec usec now draws = .error fault := by
  obtain ⟨before, h, todo, split, tmp, rfl, rfl⟩ := inv.split handlers
  have earlier (h₀ : Handler) (member : h₀ ∈ before) : h₀.id ≠ h.id :=
    ((Server.order_split inv.sorted_ids split).1 h₀ member).ne
  refine ⟨h, by simp [split], rfl, ?_⟩
  unfold takeTurn at failed
  rw [handlers] at failed
  dsimp only at failed
  rw [handler?_split split earlier] at failed
  dsimp only at failed
  cases processed : timers.srv.processHandler h sec usec now draws with
  | error fault' =>
      rw [processed] at failed
      exact congrArg Except.error (Except.error.inj failed)
  | ok srv' =>
      obtain ⟨kind, stopped, _, found, _⟩ :=
        Server.processHandler_spec inv.last split inv.sorted_ids processed
      have kept := handler?_split found (by simpa using earlier)
      rw [Handler.halt_id] at kept
      simp only [processed, Bind.bind, Except.bind, kept] at failed
      split_ifs at failed

theorem takeTurn_srv {timers : Timers} (inv : timers.Inv) {h : Handler}
    (member : h ∈ timers.srv.timeoutHandlers) {ids : List HandlerId}
    (handlers : timers.handlers = h.id :: ids) (sec usec : Int) (now : Int64)
    (draws : List Nat) : (timers.takeTurn sec usec now draws).map Timers.srv =
      timers.srv.processTimeout h sec usec now draws := by
  have known := inv.inv.sound.handlers
  cases done : timers.takeTurn sec usec now draws with
  | ok timers' =>
      obtain ⟨h', after, before, todo, rest, takes⟩ := takeTurn_takes inv done
      have same : h'.id = h.id := (List.cons.inj (takes.handlers.symm.trans handlers)).1
      obtain rfl := known.unique h' (by simp [takes.split]) h member same
      rw [← Server.step_timer known member, takes.step]
      rfl
  | error fault =>
      obtain ⟨h', member', same, failed⟩ := takeTurn_error inv handlers done
      obtain rfl := known.unique h' member' h member same
      rw [Server.processTimeout_eq, failed]
      rfl

/-- The list that is drained holds the handlers from `next` on: the loop is the one over the
handlers that are not deleted. -/
theorem drain_srv {timers : Timers} (inv : timers.Inv) (busy : timers.passed ≠ none)
    {next : HandlerId} (done : ∀ id ∈ timers.tmp, id < next)
    (due : ∀ id ∈ timers.handlers, next ≤ id) (turn : Turn) (fuel : Nat) :
    (timers.drain turn.sec turn.usec turn.clock turn.draws fuel).map Timers.srv =
      Server.processTimeouts turn fuel next timers.srv := by
  -- Along the loop `next` is one more than the handler taken last.
  induction fuel generalizing timers next with
  | zero => rfl
  | succ fuel ih =>
      unfold drain Server.processTimeouts
      cases handlers : timers.handlers with
      | nil =>
          have none : timers.srv.nextTimeout next = none := by
            refine List.find?_eq_none.mpr fun h member => ?_
            have inside : h.id ∈ timers.tmp ++ timers.handlers := inv.ids ▸ List.mem_map_of_mem member
            rw [handlers, List.append_nil] at inside
            simpa using done h.id inside
          rw [none]
          rfl
      | cons id ids =>
          obtain ⟨before, h, todo, split, tmp, rfl, _⟩ := inv.split handlers
          have found : timers.srv.nextTimeout next = some h := by
            unfold Server.nextTimeout
            rw [split, List.find?_append, List.find?_eq_none.mpr fun h₀ member => ?_]
            · simp [due h.id (by simp [handlers])]
            · have inside : h₀.id ∈ timers.tmp := tmp ▸ List.mem_map_of_mem member
              simpa using done h₀.id inside
          have same := takeTurn_srv inv (by simp [split]) handlers turn.sec turn.usec
            (turn.clock h.id) (turn.draws h.id)
          rw [found]
          dsimp only
          rw [← same]
          cases taken : timers.takeTurn turn.sec turn.usec (turn.clock h.id) (turn.draws h.id) with
          | error fault => rfl
          | ok timers' =>
              obtain ⟨h', after, before', todo', rest, takes⟩ := takeTurn_takes inv taken
              have here : h'.id = h.id := (List.cons.inj (takes.handlers.symm.trans handlers)).1
              obtain ⟨_, ordered, _⟩ := List.pairwise_append.mp (takes.sorted inv)
              have reached : next ≤ h.id := due h.id (by simp [handlers])
              obtain ⟨handlers', passed, outcome⟩ := takes.outcome
              -- New handlers have greater numbers than `h`, so the loop meets them too.
              refine ih (takes.inv inv busy) (by rwa [passed]) (fun id member => ?_)
                fun id member => ?_
              · have inside : id ∈ timers.tmp ∨ id = h.id := by
                  split_ifs at outcome
                  · exact .inl (outcome.2.1 ▸ member)
                  · rw [outcome.2.1, here] at member
                    simpa using member
                rcases inside with old | rfl
                · exact Nat.lt_succ_of_lt (lt_of_lt_of_le (done id old) reached)
                · exact Nat.lt_succ_self _
              · rw [handlers'] at member
                exact here ▸ (List.pairwise_cons.mp ordered).1 id member

theorem processTimeouts_srv {timers : Timers} (inv : timers.Inv) (quiet : timers.passed = none)
    (turn : Turn) {fuel : Nat} (enough : 0 < fuel) :
    (timers.processTimeouts turn.sec turn.usec turn.clock turn.draws fuel).map Timers.srv =
      Server.processTimeouts turn fuel 0 timers.srv := by
  have drained := drain_srv (inv.pass turn.sec turn.usec) nofun
    (by simp [inv.idle quiet]) (fun id _ => Nat.zero_le id) turn fuel
  unfold processTimeouts
  split_ifs with empty
  · have none : timers.srv.nextTimeout 0 = none := by
      have ids := inv.ids
      rw [inv.idle quiet, empty, List.append_nil, List.map_eq_nil_iff] at ids
      simp [Server.nextTimeout, ids]
    obtain ⟨fuel, rfl⟩ := Nat.exists_eq_add_of_lt enough
    rw [Nat.zero_add]
    unfold Server.processTimeouts
    rw [none]
    rfl
  · rw [← drained]
    cases drain turn.sec turn.usec turn.clock turn.draws fuel
      { timers with passed := some (turn.sec, turn.usec) } <;> rfl

theorem drain_run {timers timers' : Timers} {sec usec : Int} {clock : HandlerId → Int64}
    {draws : HandlerId → List Nat} {fuel : Nat} (passed : timers.passed = some (sec, usec))
    (inv : timers.Inv) (done : timers.drain sec usec clock draws fuel = .ok timers') :
    ∃ ticks, (∀ tick ∈ ticks, ∃ now draws, tick = .turn now draws) ∧
      run timers ticks = .ok timers' ∧ timers'.handlers = [] ∧
      timers'.passed = some (sec, usec) := by
  induction fuel generalizing timers with
  | zero => cases done
  | succ fuel ih =>
      unfold drain at done
      cases handlers : timers.handlers with
      | nil =>
          rw [handlers] at done
          obtain rfl := Except.ok.inj done
          exact ⟨[], nofun, rfl, handlers, passed⟩
      | cons id ids =>
          rw [handlers] at done
          obtain ⟨timers₁, attempted, rest⟩ := bind_ok done
          have taken := Server.attempt_ok attempted
          obtain ⟨h, after, before, todo, back, takes⟩ := takeTurn_takes inv taken
          obtain ⟨ticks, turns, ran, ended⟩ := ih (takes.outcome.2.1.trans passed)
            (takes.inv inv (by simp [passed])) rest
          have stepped : timers.step (.turn (clock id) (draws id)) = .ok timers₁ := by
            simp [step, passed, taken]
          refine ⟨_ :: ticks, ?_, (run_cons_ok _ stepped).mpr ran, ended⟩
          exact List.forall_mem_cons.mpr ⟨⟨_, _, rfl⟩, turns⟩

/-- A call of `_process_timeouts` is so many ticks. -/
theorem processTimeouts_run {timers timers' : Timers} (inv : timers.Inv)
    (quiet : timers.passed = none) {sec usec : Int} {clock : HandlerId → Int64}
    {draws : HandlerId → List Nat} {fuel : Nat}
    (done : timers.processTimeouts sec usec clock draws fuel = .ok timers') :
    ∃ ticks, (∀ tick ∈ ticks, ∃ now draws, tick = .turn now draws) ∧
      run timers (.pass sec usec :: ticks ++ [.swap]) = .ok timers' := by
  have begun : timers.step (.pass sec usec) = .ok { timers with passed := some (sec, usec) } := by
    simp [step, quiet]
  unfold processTimeouts at done
  split_ifs at done with empty
  · obtain rfl := Except.ok.inj done
    refine ⟨[], nofun, (run_cons_ok _ begun).mpr ?_⟩
    have swapped : Timers.step { timers with passed := some (sec, usec) } .swap = .ok timers := by
      have tmp := inv.idle quiet
      cases timers
      simp_all [step, Timers.swap]
    exact (run_cons_ok _ swapped).mpr rfl
  · obtain ⟨timers₁, drained, same⟩ := bind_ok done
    obtain rfl := Except.ok.inj same
    obtain ⟨ticks, turns, ran, handlers, passed⟩ := drain_run rfl (inv.pass sec usec) drained
    have swapped : timers₁.step .swap = .ok timers₁.swap := by
      simp [step, handlers, passed]
    refine ⟨ticks, turns, (run_cons_ok _ begun).mpr ?_⟩
    exact (run_append_ok step).mpr ⟨timers₁, ran, (run_cons_ok _ swapped).mpr rfl⟩

theorem step_srv {timers timers' : Timers} {tick : TimerTick} (inv : timers.Inv)
    (done : timers.step tick = .ok timers') :
    timers'.srv = timers.srv ∨ ∃ e, timers.srv.step e = .ok timers'.srv := by
  cases tick with
  | event e =>
      simp only [step] at done
      split_ifs at done
      obtain ⟨srv', stepped, same⟩ := bind_ok done
      obtain rfl := Except.ok.inj same
      exact .inr ⟨e, stepped⟩
  | pass sec usec =>
      simp only [step] at done
      split_ifs at done
      obtain rfl := Except.ok.inj done
      exact .inl rfl
  | turn now draws =>
      simp only [step] at done
      split at done
      · cases done
      · obtain ⟨h, after, before, todo, rest, takes⟩ := takeTurn_takes inv done
        exact .inr ⟨_, takes.step⟩
  | swap =>
      simp only [step] at done
      split_ifs at done
      obtain rfl := Except.ok.inj done
      exact .inl rfl

end Timers
end Battleship
