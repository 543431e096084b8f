import Battleship.MainLoop
import Battleship.SessionSafety

/-! The counts of the client arrays are right in every reachable state, so the loops of
the main cycle, which only count, end and meet every client once. -/
namespace Battleship

open Runs SlotTable

namespace ClientArray

def Counted (array : ClientArray) : Prop := array.count = occupied array.clients

theorem counted_new (size : Nat) : (new size).Counted := by
  simp [Counted, new, occupied, List.countP_replicate]

theorem Counted.add {array array' : ClientArray} (counted : array.Counted) {c : ClientId}
    (added : array.add c = some array') : array'.Counted := by
  rw [add_eq, Option.map_eq_some_iff] at added
  obtain ⟨slots, stored, rfl⟩ := added
  simp only [Counted, occupied_put stored, Nat.cast_add, Nat.cast_one]
  rw [counted]

theorem Counted.remove {array : ClientArray} (counted : array.Counted) (c : ClientId) :
    (array.remove c).Counted := by
  unfold ClientArray.remove
  cases found : array.clients.findIdx? (fun slot => decide (slot = some c)) with
  | none => exact counted
  | some pos =>
      obtain ⟨inside, here, _⟩ := List.findIdx?_eq_some_iff_getElem.mp found
      have member : some c ∈ array.clients := by
        rw [← of_decide_eq_true here]
        exact List.getElem_mem inside
      have erased : SlotTable.erase array.clients c = array.clients.set pos none := by
        simp [SlotTable.erase, found]
      have fewer := occupied_erase member
      rw [erased] at fewer
      have counted : array.count = occupied array.clients := counted
      show array.count - 1 = (occupied (array.clients.set pos none) : Int)
      omega

end ClientArray

structure Crew.Counted (crew : Crew) : Prop where
  queue : crew.clientsQueue.Counted
  inGame : crew.clientsInGame.Counted

theorem Crew.Counted.gone {crew : Crew} (counted : crew.Counted) (clients : List ClientId) :
    (clients.foldl Crew.gone crew).Counted := by
  induction clients generalizing crew with
  | nil => exact counted
  | cons c clients ih => exact ih ⟨counted.queue.remove c, counted.inGame.remove c⟩

namespace Server

theorem Moves.counted {srv : Server} {e : Event} {crew : Crew} (moves : srv.Moves e crew)
    (counted : srv.crew.Counted) : crew.Counted := by
  cases moves with
  | refused full => exact counted
  | accepted added => exact ⟨counted.queue.add added, counted.inGame⟩
  | message alive => exact counted
  | joined alone added => exact ⟨counted.queue.remove _, counted.inGame.add added⟩
  | broken alive => exact counted.gone [_]
  | timer gone => exact counted.gone gone

structure Tidy (srv : Server) : Prop where
  inv : srv.Inv
  counted : srv.crew.Counted

theorem Tidy.count_inGame {srv : Server} (tidy : srv.Tidy) :
    srv.clientsInGame.count = occupied srv.clientsInGame.clients := tidy.counted.inGame

theorem Tidy.count_queue {srv : Server} (tidy : srv.Tidy) :
    srv.clientsQueue.count = occupied srv.clientsQueue.clients := tidy.counted.queue

theorem step_tidy {srv srv' : Server} {e : Event} (tidy : srv.Tidy)
    (done : srv.step e = .ok srv') : srv'.Tidy :=
  ⟨step_inv tidy.inv done, (step_moves_crew tidy.inv.sound done).counted tidy.counted⟩

theorem run_tidy {srv srv' : Server} {es : List Event} (tidy : srv.Tidy)
    (done : run srv es = .ok srv') : srv'.Tidy :=
  run_invariant step (fun _ _ _ tidy stepped => step_tidy tidy stepped) tidy done

theorem Reachable.tidy {srv : Server} (reachable : srv.Reachable) : srv.Tidy := by
  obtain ⟨es, done⟩ := reachable
  exact run_tidy ⟨init_inv, ClientArray.counted_new _, ClientArray.counted_new _⟩ done

theorem attempt_ok {α : Type} {x : Except Fault α} {value : α} (done : attempt x = .ok value) :
    x = .ok value := mapError_ok done

theorem Tidy.step_timer {srv : Server} (tidy : srv.Tidy) {h : Handler}
    (member : h ∈ srv.timeoutHandlers) (sec usec : Int) (now : Int64) (draws : List Nat) :
    srv.step (.timer h.id sec usec now draws) = srv.processTimeout h sec usec now draws := by
  have found : srv.timeoutHandlers.find? (fun h' => h'.id = h.id) = some h := by
    cases result : srv.timeoutHandlers.find? (fun h' => h'.id = h.id) with
    | none => simpa using List.find?_eq_none.mp result h member
    | some h' =>
        have same : h'.id = h.id := by simpa using List.find?_some result
        rw [tidy.inv.sound.handlers.unique h' (List.mem_of_find?_eq_some result) h member same]
  simp only [step, found]

def Serves (srv srv' : Server) : Prop := ∃ es, (∀ e ∈ es, e ≠ .accept) ∧ run srv es = .ok srv'

theorem Serves.refl (srv : Server) : srv.Serves srv := ⟨[], nofun, rfl⟩

theorem Serves.of_step {srv srv' : Server} {e : Event} (other : e ≠ .accept)
    (stepped : srv.step e = .ok srv') : srv.Serves srv' :=
  ⟨[e], by simpa using other, (run_cons_ok step stepped).mpr rfl⟩

theorem Serves.trans {srv srv' srv'' : Server} (first : srv.Serves srv')
    (second : srv'.Serves srv'') : srv.Serves srv'' := by
  obtain ⟨es, others, ran⟩ := first
  obtain ⟨es', others', ran'⟩ := second
  refine ⟨es ++ es', fun e member => ?_, (run_append_ok step).mpr ⟨srv', ran, ran'⟩⟩
  exact (List.mem_append.mp member).elim (others e) (others' e)

theorem Serves.tidy {srv srv' : Server} (serves : srv.Serves srv') (tidy : srv.Tidy) :
    srv'.Tidy := by
  obtain ⟨es, _, ran⟩ := serves
  exact run_tidy tidy ran

theorem Tidy.mem_present {srv : Server} (tidy : srv.Tidy) {c : ClientId} :
    c ∈ srv.present ↔ srv.clients c ≠ none := by
  rw [present, List.mem_append, tidy.inv.sound.seats.inGame.mem_reduceOption,
    tidy.inv.sound.seats.queue.mem_reduceOption]
  constructor
  · rintro (⟨s, member⟩ | alone)
    · simp [member]
    · simp [alone]
  · intro alive
    obtain ⟨⟨session⟩, client⟩ := Option.ne_none_iff_exists'.mp alive
    cases session with
    | none => exact .inr client
    | some s => exact .inl ⟨s, client⟩

theorem Tidy.nodup_present {srv : Server} (tidy : srv.Tidy) : srv.present.Nodup := by
  have seats := tidy.inv.sound.seats
  refine List.nodup_append'.mpr ⟨seats.inGame.nodup_reduceOption, seats.queue.nodup_reduceOption, ?_⟩
  intro c inGame waiting
  obtain ⟨s, member⟩ := seats.inGame.mem_reduceOption.mp inGame
  cases member.symm.trans (seats.queue.mem_reduceOption.mp waiting)

end Server

structure Crew.Own (c : ClientId) (crew crew' : Crew) : Prop where
  queue : Beside c crew.clientsQueue.clients crew'.clientsQueue.clients
  inGame : crew.clients c ≠ some ⟨none⟩ →
    Beside c crew.clientsInGame.clients crew'.clientsInGame.clients ∧ crew'.clients c ≠ some ⟨none⟩
  others : ∀ d ≠ c, crew'.clients d = crew.clients d

namespace Crew

theorem Own.refl (c : ClientId) (crew : Crew) : Own c crew crew :=
  ⟨.refl c _, fun seated => ⟨.refl c _, seated⟩, fun _ _ => rfl⟩

theorem Own.trans {c : ClientId} {crew crew' crew'' : Crew} (first : Own c crew crew')
    (second : Own c crew' crew'') : Own c crew crew'' := by
  refine ⟨first.queue.trans second.queue, fun seated => ?_, fun d other => ?_⟩
  · obtain ⟨beside, seated'⟩ := first.inGame seated
    obtain ⟨beside', seated''⟩ := second.inGame seated'
    exact ⟨beside.trans beside', seated''⟩
  · exact (second.others d other).trans (first.others d other)

theorem own_gone (c : ClientId) (crew : Crew) : Own c crew (crew.gone c) := by
  refine ⟨?_, fun _ => ⟨?_, by simp [gone]⟩, fun d other => Function.update_of_ne other _ _⟩
  · simpa only [gone, ClientArray.remove_clients] using beside_erase c crew.clientsQueue.clients
  · simpa only [gone, ClientArray.remove_clients] using beside_erase c crew.clientsInGame.clients

theorem own_joined {c : ClientId} {crew : Crew} (alone : crew.clients c = some ⟨none⟩)
    (s : SessionId) (inGame : ClientArray) : Own c crew (crew.joined c s inGame) := by
  refine ⟨?_, fun seated => absurd alone seated, fun d other => Function.update_of_ne other _ _⟩
  simpa only [joined, ClientArray.remove_clients] using beside_erase c crew.clientsQueue.clients

end Crew

namespace Server

theorem message_ends {srv : Server} (tidy : srv.Tidy) {c : ClientId}
    (alive : srv.clients c ≠ none) (msg : Message) (now : Int64) :
    ∃ srv', srv.processMsg c msg now = .ok srv' ∧ srv.step (.message c msg now) = .ok srv' ∧
      srv'.clients c ≠ none ∧ Crew.Own c srv.crew srv'.crew := by
  have enabled : srv.step (.message c msg now) = srv.processMsg c msg now :=
    if_pos (Option.isSome_iff_ne_none.mpr alive)
  have mingles := processMsg_mingles tidy.inv.sound alive msg now
  cases done : srv.processMsg c msg now with
  | error fault =>
      have excused := (step_follows tidy.inv _).fault (enabled.trans done)
      rcases excused with rfl | rfl <;> exact absurd (mingles.fault done) (by simp [Crash])
  | ok srv' =>
      refine ⟨srv', rfl, enabled.trans done, ?_⟩
      rcases (mingles.elim done).crew with same | ⟨alone, s, inGame, _, joined⟩
      · have clients : srv'.clients = srv.clients := congrArg Crew.clients same
        exact ⟨clients ▸ alive, same ▸ .refl c _⟩
      · have clients : srv'.clients = Function.update srv.clients c (some ⟨some s⟩) :=
          congrArg Crew.clients joined
        exact ⟨by simp [clients], joined ▸ Crew.own_joined alone s inGame⟩

theorem broken_ends {srv : Server} (tidy : srv.Tidy) {c : ClientId}
    (alive : srv.clients c ≠ none) :
    ∃ srv', srv.connBroken c = .ok srv' ∧ srv.step (.broken c) = .ok srv' ∧
      srv'.crew = srv.crew.gone c := by
  have enabled : srv.step (.broken c) = srv.connBroken c :=
    if_pos (Option.isSome_iff_ne_none.mpr alive)
  cases done : srv.connBroken c with
  | error fault =>
      have excused := (step_follows tidy.inv _).fault (enabled.trans done)
      have crash := (srv.connBroken_leaves c).fault done
      rcases excused with rfl | rfl <;> exact absurd crash (by simp [Crash])
  | ok srv' => exact ⟨srv', rfl, enabled.trans done, ((srv.connBroken_leaves c).elim done).2⟩

/-- What comes in for a client is handled as so many events of its own. -/
theorem receive_ends {srv : Server} (tidy : srv.Tidy) {c : ClientId}
    (alive : srv.clients c ≠ none) (input : Input) :
    ∃ srv', srv.receive c input = .ok srv' ∧ srv.Serves srv' ∧
      Crew.Own c srv.crew srv'.crew := by
  cases input with
  | broken =>
      obtain ⟨srv', done, stepped, crew⟩ := broken_ends tidy alive
      refine ⟨srv', done, .of_step (by simp) stepped, ?_⟩
      rw [crew]
      exact Crew.own_gone c _
  | messages msgs =>
      show ∃ srv', srv.processMsgs c msgs = .ok srv' ∧ _
      induction msgs generalizing srv with
      | nil => exact ⟨srv, rfl, .refl srv, .refl c _⟩
      | cons msg msgs ih =>
          obtain ⟨srv₁, done, stepped, alive₁, own⟩ := message_ends tidy alive msg.1 msg.2
          obtain ⟨srv', rest, serves, own'⟩ := ih (step_tidy tidy stepped) alive₁
          refine ⟨srv', ?_, Serves.trans (.of_step (by simp) stepped) serves, own.trans own'⟩
          unfold processMsgs
          rw [List.foldlM_cons, done]
          exact rest

/-- There are more turns than slots in either array. -/
def Enough (fuel : Nat) : Prop := gameCount * 2 < fuel ∧ clientQueueLen < fuel

theorem fillFdSets_eq {srv : Server} (tidy : srv.Tidy) (listenFd : Int) (fd : ClientId → Int)
    (readyWrite : ClientId → Bool) {fuel : Nat} (enough : Enough fuel) :
    srv.fillFdSets listenFd fd readyWrite fuel =
      .ok (srv.present.foldl (fillFor fd readyWrite) ⟨listenFd, [listenFd], []⟩) := by
  have seats := tidy.inv.sound.seats
  have inGame := walk_const Fault srv.clientsInGame.clients (fillFor fd readyWrite)
    ⟨listenFd, [listenFd], []⟩ (seats.inGame.length ▸ enough.1)
  have queue (sets : FdSets) := walk_const Fault srv.clientsQueue.clients
    (fillFor fd readyWrite) sets (seats.queue.length ▸ enough.2)
  unfold fillFdSets
  dsimp only
  rw [tidy.count_inGame, tidy.count_queue, inGame]
  simp only [Bind.bind, Except.bind, queue, present, List.foldl_append]

end Server

namespace Host

theorem fdAction_ends {host : Host} (tidy : host.srv.Tidy) (turn : Turn) {c : ClientId}
    (alive : host.srv.clients c ≠ none) : ∃ srv', fdAction turn host c = .ok { host with
        srv := srv', touched := host.touched ++ host.touches turn c } ∧
      host.srv.Serves srv' ∧ Crew.Own c host.srv.crew srv'.crew := by
  obtain ⟨srv', done, ran, own⟩ := Server.receive_ends tidy alive (host.receives turn c)
  refine ⟨srv', ?_, ran, own⟩
  simp [fdAction, done, attempt, Except.mapError, Bind.bind, Except.bind]

/-- The first loop serves the clients in the game and leaves the queue alone. -/
theorem serve_inGame {host : Host} (tidy : host.srv.Tidy) (turn : Turn) {fuel : Nat}
    (enough : Server.Enough fuel) :
    ∃ host', walk (fun host : Host => host.srv.clientsInGame.clients) (fdAction turn) fuel 0
        host.srv.clientsInGame.count host = .ok host' ∧
      host.srv.clientsInGame.clients.reduceOption.foldlM (fdAction turn) host = .ok host' ∧
      host.srv.Serves host'.srv ∧
      host'.srv.clientsQueue.clients = host.srv.clientsQueue.clients := by
  have ends := walk_ends (fun host : Host => host.srv.clientsInGame.clients)
    (fdAction turn) (fun host' => host.srv.Serves host'.srv ∧
      host'.srv.clientsQueue.clients = host.srv.clientsQueue.clients) ?_ (s := host)
    ⟨.refl _, rfl⟩ (i := 0) (tidy.inv.sound.seats.inGame.length ▸ enough.1)
  · rw [tidy.count_inGame]
    exact ends
  · rintro host₁ i c ⟨ran, queue⟩ here
    have tidy₁ : host₁.srv.Tidy := ran.tidy tidy
    have seats := tidy₁.inv.sound.seats
    obtain ⟨s, member⟩ := (seats.inGame.mem c).mp (List.mem_of_getElem? here)
    obtain ⟨srv', done, served, own⟩ := fdAction_ends tidy₁ turn (c := c) (by simp [member])
    have waiting : some c ∉ host₁.srv.clientsQueue.clients := fun queued => by
      cases member.symm.trans ((seats.queue.mem c).mp queued)
    have seated : host₁.srv.crew.clients c ≠ some ⟨none⟩ := by simp [Server.crew, member]
    refine ⟨_, done, ⟨ran.trans served, ?_⟩, ?_⟩
    · exact (own.queue.of_absent waiting).trans queue
    · exact (own.inGame seated).1.drop seats.inGame here

/-- The second loop serves the clients in the queue, also those that leave it for the
game. -/
theorem serve_queue {host : Host} (tidy : host.srv.Tidy) (turn : Turn) {fuel : Nat}
    (enough : Server.Enough fuel) :
    ∃ host', walk (fun host : Host => host.srv.clientsQueue.clients) (fdAction turn) fuel 0
        host.srv.clientsQueue.count host = .ok host' ∧
      host.srv.clientsQueue.clients.reduceOption.foldlM (fdAction turn) host = .ok host' ∧
      host.srv.Serves host'.srv := by
  have ends := walk_ends (fun host : Host => host.srv.clientsQueue.clients)
    (fdAction turn) (fun host' => host.srv.Serves host'.srv)
    ?_ (s := host) (.refl _) (i := 0)
    (tidy.inv.sound.seats.queue.length ▸ enough.2)
  · rw [tidy.count_queue]
    exact ends
  · rintro host₁ i c ran here
    have tidy₁ : host₁.srv.Tidy := ran.tidy tidy
    have seats := tidy₁.inv.sound.seats
    have alone := (seats.queue.mem c).mp (List.mem_of_getElem? here)
    obtain ⟨srv', done, served, own⟩ := fdAction_ends tidy₁ turn (c := c) (by simp [alone])
    exact ⟨_, done, ran.trans served, own.queue.drop seats.queue here⟩

theorem processFdActions_ends {host : Host} (tidy : host.srv.Tidy) (turn : Turn) {fuel : Nat}
    (enough : Server.Enough fuel) :
    ∃ host', host.processFdActions turn fuel = .ok host' ∧
      host.srv.present.foldlM (fdAction turn) host = .ok host' ∧
      host.srv.Serves host'.srv := by
  obtain ⟨host₁, walked, met, ran, queue⟩ := serve_inGame tidy turn enough
  obtain ⟨host', walked', met', ran'⟩ :=
    serve_queue (ran.tidy tidy) turn enough
  refine ⟨host', ?_, ?_, ran.trans ran'⟩
  · unfold processFdActions
    rw [walked]
    exact walked'
  · rw [Server.present, List.foldlM_append, met, ← queue]
    exact met'

theorem foldlM_fdAction {host host' : Host} {turn : Turn} {clients : List ClientId}
    (done : clients.foldlM (fdAction turn) host = .ok host') :
    host'.fd = host.fd ∧ host'.listenFd = host.listenFd ∧
      host'.touched = host.touched ++ clients.flatMap (host.touches turn) := by
  induction clients generalizing host with
  | nil =>
      obtain rfl : host = host' := Except.ok.inj done
      simp
  | cons c clients ih =>
      rw [List.foldlM_cons] at done
      obtain ⟨host₁, first, rest⟩ := bind_ok done
      obtain ⟨srv', _, same⟩ := bind_ok first
      obtain rfl := (Except.ok.inj same).symm
      obtain ⟨fd, listenFd, touched⟩ := ih rest
      refine ⟨fd, listenFd, touched.trans ?_⟩
      have touches : touches { host with
          srv := srv', touched := host.touched ++ host.touches turn c } turn =
            host.touches turn := rfl
      simp [touches]

end Host

namespace Server

theorem Tidy.present_once {srv : Server} (tidy : srv.Tidy) (c : ClientId) :
    srv.clientsInGame.clients.count (some c) + srv.clientsQueue.clients.count (some c) =
      if srv.clients c = none then 0 else 1 := by
  rw [← count_reduceOption, ← count_reduceOption, ← List.count_append]
  show srv.present.count c = _
  split_ifs with dead
  · exact List.count_eq_zero.mpr fun met => tidy.mem_present.mp met dead
  · exact List.count_eq_one_of_mem tidy.nodup_present (tidy.mem_present.mpr dead)

theorem Seats.one_session {srv : Server} (seats : srv.Seats) (c : ClientId) :
    (srv.gameSessionOf c).isSome ↔
      ∃! s, s < srv.sessionCount ∧ ∃ i, (srv.sessions s).players i = some c := by
  constructor
  · intro joined
    obtain ⟨s, session⟩ := Option.isSome_iff_exists.mp joined
    have member := gameSessionOf_eq.mp session
    obtain ⟨i, seated⟩ := seats.member s c member
    refine ⟨s, ⟨seats.born seated, i, seated⟩, ?_⟩
    rintro t ⟨_, j, there⟩
    have client := member.symm.trans (seats.seat t j c there)
    simpa [eq_comm] using client
  · rintro ⟨s, ⟨_, i, seated⟩, _⟩
    simp [gameSessionOf, seats.seat s i c seated]

theorem Seats.mem_inGame {srv : Server} (seats : srv.Seats) (c : ClientId) :
    some c ∈ srv.clientsInGame.clients ↔ (srv.gameSessionOf c).isSome := by
  simp only [seats.inGame.mem, Option.isSome_iff_exists, gameSessionOf_eq]

/-- The server's records of its clients agree. -/
structure Bookkeeping (srv : Server) : Prop where
  slot : ∀ c, srv.clientsInGame.clients.count (some c) + srv.clientsQueue.clients.count (some c) =
    if srv.clients c = none then 0 else 1
  joined : ∀ c, some c ∈ srv.clientsInGame.clients ↔ (srv.gameSessionOf c).isSome
  listed : ∀ c, (srv.gameSessionOf c).isSome ↔
    ∃! s, s < srv.sessionCount ∧ ∃ i, (srv.sessions s).players i = some c
  inGameCount : srv.clientsInGame.count = srv.clientsInGame.clients.countP Option.isSome
  queueCount : srv.clientsQueue.count = srv.clientsQueue.clients.countP Option.isSome
  few : srv.sessionCount ≤ gameCount
  -- the two places where `connect_player_to_game` calls `_change_client_queue`
  changes : ∀ c s srv₁, s < srv.sessionCount → srv.setGameSession c s = some srv₁ →
    (srv₁.changeClientQueue c).1 = true
  changesNew : ∀ c srv₁, srv.sessionCount ≠ gameCount →
    srv.opened.setGameSession c srv.sessionCount = some srv₁ → (srv₁.changeClientQueue c).1 = true
  refuses : ∀ c srv', srv.clients c = some ⟨none⟩ →
    srv.connectPlayerToGame c = (false, srv') → srv' = srv
  -- the loops end and meet every client of both arrays once
  once : srv.present.Nodup ∧ ∀ c, c ∈ srv.present ↔ srv.clients c ≠ none
  fills : ∀ listenFd fd readyWrite fuel, Enough fuel →
    srv.fillFdSets listenFd fd readyWrite fuel =
      .ok (srv.present.foldl (fillFor fd readyWrite) ⟨listenFd, [listenFd], []⟩)
  serves : ∀ (host : Host) turn fuel, host.srv = srv → Enough fuel →
    ∃ host', host.processFdActions turn fuel = .ok host' ∧
      srv.present.foldlM (Host.fdAction turn) host = .ok host'

theorem Tidy.bookkeeping {srv : Server} (tidy : srv.Tidy) : srv.Bookkeeping where
  slot := tidy.present_once
  joined := tidy.inv.sound.seats.mem_inGame
  listed := tidy.inv.sound.seats.one_session
  inGameCount := tidy.count_inGame
  queueCount := tidy.count_queue
  few := tidy.inv.sound.seats.few
  changes := fun _ _ _ born joined => by
    obtain ⟨srv', fits⟩ := tidy.inv.sound.changeClientQueue born joined
    rw [fits]
  changesNew := fun _ _ room joined => by
    obtain ⟨srv', fits⟩ :=
      (tidy.inv.sound.opened room).sound.changeClientQueue (Nat.lt_succ_self _) joined
    rw [fits]
  refuses := fun _ _ alone refused => connectPlayerToGame_refuses tidy.inv.sound alone refused
  once := ⟨tidy.nodup_present, fun _ => tidy.mem_present⟩
  fills := fun _ _ _ _ enough => fillFdSets_eq tidy _ _ _ enough
  serves := fun host turn fuel same enough => by
    subst same
    obtain ⟨host', ended, met, _⟩ := Host.processFdActions_ends tidy turn enough
    exact ⟨host', ended, met⟩

end Server

/-- In every reachable state each client stands in one slot of one array, in the game
exactly when one session lists it, the counts are right, no player is left in a session
but outside the array, and the loops of the main cycle end. -/
theorem bookkeeping_kept {srv : Server} (reachable : srv.Reachable) : srv.Bookkeeping :=
  reachable.tidy.bookkeeping

/-- Both players of the opened game are counted. -/
theorem bookkeeping_kept_opening :
    (Server.after opening).Bookkeeping ∧ (Server.after opening).clientsInGame.count = 2 :=
  ⟨bookkeeping_kept opening_reachable, by decide +kernel⟩

end Battleship
