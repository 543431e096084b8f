import Battleship.Bookkeeping

/-! Which clients `_process_fd_actions` reads from and writes to: those that were in the
descriptor sets and reported ready, as long as `accept` does not give a new client the
number of a descriptor that was reported ready and closed since. -/
namespace Battleship

open Runs SlotTable

theorem Crew.gone_stays (clients : List ClientId) (crew : Crew) :
    (clients.foldl Crew.gone crew).nextClient = crew.nextClient ∧
      ∀ d, (clients.foldl Crew.gone crew).clients d ≠ none → crew.clients d ≠ none := by
  induction clients generalizing crew with
  | nil => exact ⟨rfl, fun _ alive => alive⟩
  | cons c clients ih =>
      obtain ⟨next, alive⟩ := ih (crew.gone c)
      refine ⟨next, fun d left dead => alive d left ?_⟩
      by_cases same : d = c <;> simp [Crew.gone, same, dead]

namespace Server

theorem Moves.stays {srv : Server} {e : Event} {crew : Crew} (moves : srv.Moves e crew)
    (other : e ≠ .accept) :
    crew.nextClient = srv.nextClient ∧ ∀ d, crew.clients d ≠ none → srv.clients d ≠ none := by
  cases moves with
  | refused full => exact absurd rfl other
  | accepted added => exact absurd rfl other
  | message alive => exact ⟨rfl, fun _ alive => alive⟩
  | @joined c _ _ s inGame alone added =>
      refine ⟨rfl, fun d there dead => there ?_⟩
      by_cases same : d = c
      · cases alone.symm.trans (same ▸ dead)
      · simpa [Crew.joined, same, crew] using dead
  | broken alive => exact Crew.gone_stays [_] _
  | timer gone => exact Crew.gone_stays gone _

theorem Serves.stays {srv srv' : Server} (serves : srv.Serves srv') (tidy : srv.Tidy) :
    srv'.nextClient = srv.nextClient ∧ ∀ d, srv'.clients d ≠ none → srv.clients d ≠ none := by
  obtain ⟨es, others, ran⟩ := serves
  induction es generalizing srv with
  | nil =>
      obtain rfl : srv = srv' := Except.ok.inj ran
      exact ⟨rfl, fun _ alive => alive⟩
  | cons e es ih =>
      obtain ⟨srv₁, first, rest⟩ := run_cons step ran
      obtain ⟨next, alive⟩ := ih (step_tidy tidy first)
        (fun e member => others e (List.mem_cons_of_mem _ member)) rest
      obtain ⟨next₁, alive₁⟩ :=
        (step_moves_crew tidy.inv.sound first).stays (others e List.mem_cons_self)
      exact ⟨next.trans next₁, fun d left => alive₁ d (alive d left)⟩

theorem processTimeouts_serves {turn : Turn} {fuel : Nat} {next : HandlerId}
    {srv srv' : Server} (tidy : srv.Tidy)
    (done : processTimeouts turn fuel next srv = .ok srv') : srv.Serves srv' := by
  induction fuel generalizing next srv with
  | zero => cases done
  | succ fuel ih =>
      unfold processTimeouts at done
      cases found : srv.nextTimeout next with
      | none =>
          rw [found] at done
          exact Except.ok.inj done ▸ .refl srv
      | some h =>
          rw [found] at done
          obtain ⟨srv₁, first, rest⟩ := bind_ok done
          have stepped := (tidy.step_timer (List.mem_of_find?_eq_some found) turn.sec turn.usec
            (turn.clock h.id) (turn.draws h.id)).trans (attempt_ok first)
          exact Serves.trans (.of_step (by simp) stepped) (ih (step_tidy tidy stepped) rest)

end Server

namespace Host

/-- `_fill_fd_sets` put the descriptor of this client into the set, and `select` reported it
ready. -/
def Reported (host : Host) (turn : Turn) : Touch → Prop
  | .readMsg c => c ∈ host.srv.present ∧ host.fd c ∈ turn.ready.readfds
  | .writeMsg c =>
      c ∈ host.srv.present ∧ turn.readyWrite c = true ∧ host.fd c ∈ turn.ready.writefds

/-- The turn calls `read_msg` and `write_msg` only for clients that were reported. -/
def TouchesReported (fuel : Nat) (host : Host) (turn : Turn) : Prop :=
  ∀ host', cycle fuel host turn = .ok host' → ∀ touch ∈ host'.touched, host.Reported turn touch

/-- A new connection does not get the number of a descriptor that was reported ready. -/
def Careful (turn : Turn) : Prop :=
  ∀ fd, turn.accepted = some fd → fd ∉ turn.ready.readfds ∧ fd ∉ turn.ready.writefds

structure Apart (host : Host) : Prop where
  tidy : host.srv.Tidy
  clients : ∀ c d, host.srv.clients c ≠ none → host.srv.clients d ≠ none →
    host.fd c = host.fd d → c = d
  listen : ∀ c, host.srv.clients c ≠ none → host.fd c ≠ host.listenFd

theorem Apart.left {host : Host} (apart : host.Apart) {srv : Server} (tidy : srv.Tidy)
    (stays : ∀ d, srv.clients d ≠ none → host.srv.clients d ≠ none) (touched : List Touch) :
    Apart { host with srv := srv, touched := touched } :=
  ⟨tidy, fun c d here there => apart.clients c d (stays c here) (stays d there),
    fun c here => apart.listen c (stays c here)⟩

theorem mem_openFds {host : Host} (tidy : host.srv.Tidy) {fd : Int} :
    fd ∈ host.openFds ↔
      fd = host.listenFd ∨ ∃ c, host.srv.clients c ≠ none ∧ host.fd c = fd := by
  simp [openFds, tidy.mem_present]

/-- The clients were there before with their descriptors, the one that `accept` has brought
apart. -/
structure Arrives (host : Host) (accepted : Option Int) (host' : Host) : Prop where
  known : ∀ c, host'.srv.clients c ≠ none →
    host.srv.clients c ≠ none ∧ host'.fd c = host.fd c ∨
      c = host.srv.nextClient ∧ accepted = some (host'.fd c)
  newcomer : ∀ fd, accepted = some fd →
    host'.srv.clients host.srv.nextClient ≠ none ∧ host'.fd host.srv.nextClient = fd

theorem Arrives.leave {host : Host} {srv : Server}
    (stays : ∀ d, srv.clients d ≠ none → host.srv.clients d ≠ none) (touched : List Touch) :
    host.Arrives none { host with srv := srv, touched := touched } :=
  ⟨fun c there => .inl ⟨stays c there, rfl⟩, nofun⟩

theorem Apart.accept {host : Host} (apart : host.Apart) {fd : Int}
    (room : ¬ host.srv.clientsQueue.isFull = true) (closed : fd ∉ host.openFds)
    (host' : Host) (same : host' = { host with
      srv := host.srv.acceptNewConnection
      fd := Function.update host.fd host.srv.nextClient fd }) :
    host'.Apart ∧ host.Arrives (some fd) host' := by
  rw [mem_openFds apart.tidy, not_or, not_exists] at closed
  obtain ⟨notListen, notOpen⟩ := closed
  have clients : host'.srv.clients =
      Function.update host.srv.clients host.srv.nextClient (some ⟨none⟩) := by
    simp [same, Server.acceptNewConnection, room]
  have fds : host'.fd = Function.update host.fd host.srv.nextClient fd := by rw [same]
  have old (c : ClientId) (here : host'.srv.clients c ≠ none) (other : c ≠ host.srv.nextClient) :
      host.srv.clients c ≠ none ∧ host'.fd c = host.fd c := by
    rw [clients, Function.update_of_ne other] at here
    exact ⟨here, by rw [fds, Function.update_of_ne other]⟩
  have new : host'.fd host.srv.nextClient = fd := by rw [fds, Function.update_self]
  -- The descriptor was closed, so no other client has it.
  have others (c : ClientId) (here : host'.srv.clients c ≠ none)
      (other : c ≠ host.srv.nextClient) : host'.fd c ≠ fd := fun taken =>
    notOpen c ⟨(old c here other).1, (old c here other).2.symm.trans taken⟩
  refine ⟨⟨?_, fun c d here there equal => ?_, fun c here => ?_⟩, ?_, ?_⟩
  · have stepped : host.srv.step .accept = .ok host'.srv := by rw [same]; rfl
    exact Server.step_tidy apart.tidy stepped
  · by_cases newC : c = host.srv.nextClient <;> by_cases newD : d = host.srv.nextClient
    · exact newC.trans newD.symm
    · exact absurd (equal.symm.trans (newC ▸ new)) (others d there newD)
    · exact absurd (equal.trans (newD ▸ new)) (others c here newC)
    · obtain ⟨oldC, fdC⟩ := old c here newC
      obtain ⟨oldD, fdD⟩ := old d there newD
      exact apart.clients c d oldC oldD (fdC.symm.trans (equal.trans fdD))
  · have listen : host'.listenFd = host.listenFd := by rw [same]
    rw [listen]
    by_cases newC : c = host.srv.nextClient
    · rw [newC, new]
      exact notListen
    · rw [(old c here newC).2]
      exact apart.listen c (old c here newC).1
  · intro c here
    by_cases newC : c = host.srv.nextClient
    · exact .inr ⟨newC, by rw [newC, new]⟩
    · exact .inl (old c here newC)
  · intro fd' got
    obtain rfl := Option.some.inj got
    exact ⟨by simp [clients], new⟩

theorem mem_writefds {fd : ClientId → Int} {readyWrite : ClientId → Bool} {x : Int}
    {clients : List ClientId} {sets : FdSets} :
    x ∈ (clients.foldl (Server.fillFor fd readyWrite) sets).writefds ↔
      x ∈ sets.writefds ∨ ∃ c ∈ clients, readyWrite c = true ∧ fd c = x := by
  induction clients generalizing sets with
  | nil => simp
  | cons c clients ih =>
      rw [List.foldl_cons, ih]
      by_cases waiting : readyWrite c = true
      · simp [Server.fillFor, waiting, or_assoc, @eq_comm _ x]
      · simp [Server.fillFor, waiting]

theorem Arrives.after {host host₁ host₂ : Host} {accepted : Option Int}
    (arrives : host₁.Arrives accepted host₂) (fd : host₁.fd = host.fd)
    (next : host₁.srv.nextClient = host.srv.nextClient)
    (stays : ∀ d, host₁.srv.clients d ≠ none → host.srv.clients d ≠ none) :
    host.Arrives accepted host₂ := by
  obtain ⟨known, newcomer⟩ := arrives
  rw [fd, next] at known
  rw [next] at newcomer
  exact ⟨fun c there => (known c there).imp_left fun ⟨old, same⟩ => ⟨stays c old, same⟩, newcomer⟩

theorem Apart.arrives {host host' : Host} (apart : host.Apart) {accepted : Option Int}
    (done : host.acceptNewConnection accepted = .ok host') :
    host'.Apart ∧ host.Arrives accepted host' ∧ host'.touched = host.touched := by
  cases accepted with
  | none =>
      obtain rfl : host = host' := Except.ok.inj done
      exact ⟨apart, .leave (fun _ alive => alive) host.touched, rfl⟩
  | some fd =>
      simp only [acceptNewConnection] at done
      split_ifs at done with closed
      rw [not_or] at closed
      obtain rfl := Except.ok.inj done
      obtain ⟨apart', arrives⟩ := apart.accept closed.1 closed.2 _ rfl
      exact ⟨apart', arrives, rfl⟩

/-- The loops call for the clients they meet and no client comes in them. -/
theorem Apart.served {fuel : Nat} (enough : Server.Enough fuel) {host host' : Host} {turn : Turn}
    (apart : host.Apart) (done : host.processFdActions turn fuel = .ok host') :
    host'.Apart ∧
      host'.touched = host.touched ++ host.srv.present.flatMap (host.touches turn) := by
  obtain ⟨host'', ended, met, serves⟩ := processFdActions_ends apart.tidy turn enough
  obtain rfl : host' = host'' := Except.ok.inj (done.symm.trans ended)
  obtain ⟨fd, listenFd, touched⟩ := foldlM_fdAction met
  obtain ⟨_, stays⟩ := serves.stays apart.tidy
  have whole : host' = { host with srv := host'.srv, touched := host'.touched } := by
    rw [← fd, ← listenFd]
  refine ⟨?_, touched⟩
  rw [whole]
  exact apart.left (serves.tidy apart.tidy) stays _

/-- A turn makes no calls, or its loops serve the clients that are there after `accept`. -/
theorem cycle_cases {fuel : Nat} (enough : Server.Enough fuel) {host host' : Host} {turn : Turn}
    (apart : host.Apart) (done : cycle fuel host turn = .ok host') :
    host'.Apart ∧ (∀ x ∈ turn.ready.writefds, ∃ c, host.srv.clients c ≠ none ∧
        turn.readyWrite c = true ∧ host.fd c = x) ∧
      (turn.accepted = none ∧ host'.touched = [] ∨
        ∃ host₁, host₁.Apart ∧ host.Arrives turn.accepted host₁ ∧
          host'.touched = host₁.srv.present.flatMap (host₁.touches turn)) := by
  have sets := Server.fillFdSets_eq apart.tidy host.listenFd host.fd turn.readyWrite enough
  unfold cycle at done
  rw [sets] at done
  simp only [Bind.bind, Except.bind] at done
  split_ifs at done with selected
  obtain ⟨_, writes, called⟩ := selected
  have written (x : Int) (ready : x ∈ turn.ready.writefds) : ∃ c, host.srv.clients c ≠ none ∧
      turn.readyWrite c = true ∧ host.fd c = x := by
    rcases mem_writefds.mp (writes ready) with absent | ⟨c, here, waiting⟩
    · cases absent
    · exact ⟨c, apart.tidy.mem_present.mp here, waiting⟩
  unfold processSelectResult at done
  -- `select` was interrupted: no timers, no loops.
  by_cases signal : turn.result = -1
  · rw [if_pos signal] at done
    obtain rfl := Except.ok.inj done
    refine ⟨apart.left apart.tidy (fun _ alive => alive) [], written, .inl ⟨?_, rfl⟩⟩
    exact called.resolve_right fun accepts => accepts.1 signal
  rw [if_neg signal] at done
  obtain ⟨srv₁, ran, rest⟩ := bind_ok done
  have serves := Server.processTimeouts_serves apart.tidy ran
  obtain ⟨next, stays⟩ := serves.stays apart.tidy
  have apart₁ := apart.left (serves.tidy apart.tidy) stays []
  have left : host.Arrives none { host with srv := srv₁, touched := [] } := .leave stays []
  dsimp only at rest
  -- Nothing is ready: only the timers are processed.
  by_cases idle : turn.result = 0
  · rw [if_neg (not_not.mpr idle)] at rest
    obtain rfl := Except.ok.inj rest
    refine ⟨apart₁, written, .inl ⟨?_, rfl⟩⟩
    exact called.resolve_right fun accepts => accepts.2.1 idle
  rw [if_pos idle] at rest
  -- `accept` comes before the loops, so they meet the new client as well.
  by_cases ready : host.listenFd ∈ turn.ready.readfds
  · rw [if_pos ready] at rest
    obtain ⟨host₂, accepted, loops⟩ := bind_ok rest
    obtain ⟨apart₂, arrives, untouched⟩ := apart₁.arrives accepted
    obtain ⟨apart', touched⟩ := apart₂.served enough loops
    rw [untouched] at touched
    exact ⟨apart', written, .inr ⟨host₂, apart₂, arrives.after rfl next stays, touched⟩⟩
  · rw [if_neg ready] at rest
    obtain ⟨apart', touched⟩ := apart₁.served enough rest
    rw [called.resolve_right fun accepts => ready accepts.2.2]
    exact ⟨apart', written, .inr ⟨_, apart₁, left, touched⟩⟩

/-- A turn keeps to the reported clients exactly when a newcomer's number was not reported. -/
theorem touchesReported_iff {fuel : Nat} (enough : Server.Enough fuel) {host host' : Host}
    {turn : Turn} (apart : host.Apart) (done : cycle fuel host turn = .ok host') :
    TouchesReported fuel host turn ↔ Careful turn := by
  obtain ⟨_, written, quiet | ⟨host₁, apart₁, arrives, touched⟩⟩ := cycle_cases enough apart done
  · obtain ⟨nobody, untouched⟩ := quiet
    constructor
    · intro _ fd got
      cases nobody.symm.trans got
    · intro _ host'' again touch called
      obtain rfl : host' = host'' := Except.ok.inj (done.symm.trans again)
      rw [untouched] at called
      cases called
  have unborn : host.srv.clients host.srv.nextClient = none :=
    apart.tidy.inv.sound.seats.unknown _ le_rfl
  have absent : host.srv.nextClient ∉ host.srv.present := fun here =>
    apart.tidy.mem_present.mp here unborn
  constructor
  · intro reported fd got
    obtain ⟨alive, newFd⟩ := arrives.newcomer fd got
    have here := apart₁.tidy.mem_present.mpr alive
    -- whatever the loops call for the newcomer, it was in no set
    have silent (touch : Touch) (called : touch ∈ host₁.touches turn host.srv.nextClient)
        (about : host.Reported turn touch → host.srv.nextClient ∈ host.srv.present) : False := by
      refine absent (about (reported host' done touch ?_))
      rw [touched]
      exact List.mem_flatMap.mpr ⟨_, here, called⟩
    have unread : fd ∉ turn.ready.readfds := fun ready =>
      silent (.readMsg host.srv.nextClient) (by simp [touches, newFd, ready]) And.left
    refine ⟨unread, fun ready => ?_⟩
    exact silent (.writeMsg host.srv.nextClient)
      (by simp [touches, receives, newFd, unread, ready]) And.left
  · intro careful host'' again touch called
    obtain rfl : host' = host'' := Except.ok.inj (done.symm.trans again)
    rw [touched] at called
    obtain ⟨c, here, called⟩ := List.mem_flatMap.mp called
    rcases arrives.known c (apart₁.tidy.mem_present.mp here) with ⟨alive, same⟩ | ⟨_, got⟩
    · have present := apart.tidy.mem_present.mpr alive
      rw [touches, same] at called
      rcases List.mem_append.mp called with read | write
      · split_ifs at read with ready
        · obtain rfl := List.mem_singleton.mp read
          exact ⟨present, ready⟩
        · cases read
      · split at write
        · cases write
        · split_ifs at write with ready
          · obtain rfl := List.mem_singleton.mp write
            obtain ⟨d, there, waiting, equal⟩ := written _ ready
            obtain rfl := apart.clients d c there alive equal
            exact ⟨present, waiting, ready⟩
          · cases write
    · obtain ⟨unread, unwritten⟩ := careful _ got
      simp [touches, receives, unread, unwritten] at called

end Host

/-- In every run of the main cycle the server reads from and writes to none but clients
whose descriptors were in the sets and reported ready, exactly when no turn gives a new
connection the number of a descriptor that was reported ready in it. -/
theorem reported_only_iff {fuel : Nat} (enough : Server.Enough fuel) {listenFd : Int}
    {turns : List Turn} {host : Host} (done : Host.run fuel (Host.init listenFd) turns = .ok host) :
    AllSteps (Host.cycle fuel) (Host.TouchesReported fuel) (Host.init listenFd) turns ↔
      AllSteps (Host.cycle fuel) (fun _ turn => Host.Careful turn) (Host.init listenFd) turns := by
  refine allSteps_congr_of_run _ Host.Apart ?_ ?_ ⟨?_, ?_, ?_⟩ done
  · exact fun host turn host' apart stepped => Host.touchesReported_iff enough apart stepped
  · exact fun host turn host' apart stepped => (Host.cycle_cases enough apart stepped).1
  · exact (show Server.Reachable Server.init from ⟨[], rfl⟩).tidy
  · exact fun c d alive => absurd rfl alive
  · exact fun c alive => absurd rfl alive

/-! Two clients ask for a session and send no field. In the turn in which the field check
disconnects them, the first one has just sent something and a third one connects. -/

def secondPassed : Turn where
  readyWrite := fun _ => false
  result := 0
  ready := ⟨3, [], []⟩
  sec := 1
  usec := 0
  clock := fun _ => 0
  draws := fun _ => []
  accepted := none
  input := fun _ => .messages []

def arrival (fd : Int) : Turn :=
  { secondPassed with result := 1, ready := ⟨3, [3], []⟩, sec := 0, accepted := some fd }

def requests : Turn :=
  { secondPassed with
    result := 2
    ready := ⟨5, [4, 5], []⟩
    sec := 0
    input := fun _ => .messages [(⟨1, .gameSessionReq⟩, 0)] }

def lobby : List Turn := [arrival 4, arrival 5, requests]

def fieldsMissing : List Turn := lobby ++ List.replicate 70 secondPassed

def lateGuest : Turn :=
  { secondPassed with result := 2, ready := ⟨5, [3, 4], []⟩, accepted := some 4 }

/-- The numbers of the first two connections are new. -/
theorem reported_only_iff_lobby :
    AllSteps (Host.cycle 11) (Host.TouchesReported 11) (Host.init 3) lobby := by
  obtain ⟨host, done, _⟩ := ok_of_map (fun _ => ())
    (show (Host.run 11 (Host.init 3) lobby).map (fun _ => ()) = .ok () by decide +kernel)
  refine (reported_only_iff ⟨by decide, by decide⟩ done).mpr ?_
  have careful (turn : Turn) (member : turn ∈ lobby) : Host.Careful turn := by
    simp only [lobby, List.mem_cons, List.not_mem_nil, or_false] at member
    rcases member with rfl | rfl | rfl <;> rintro fd got
    · obtain rfl := Option.some.inj got
      decide
    · obtain rfl := Option.some.inj got
      decide
    · cases got
  exact ⟨careful _ (by simp [lobby]), fun _ _ => ⟨careful _ (by simp [lobby]), fun _ _ =>
    ⟨careful _ (by simp [lobby]), fun _ _ => trivial⟩⟩⟩

/-- The third client gets the number of the first one and is read from at once. -/
theorem reused_number_read : ¬ ∀ fuel listenFd turns host, Server.Enough fuel →
    Host.run fuel (Host.init listenFd) turns = .ok host →
    AllSteps (Host.cycle fuel) (Host.TouchesReported fuel) (Host.init listenFd) turns := by
  intro kept
  obtain ⟨host', whole, touched⟩ := ok_of_map Host.touched
    (show (Host.run 11 (Host.init 3) (fieldsMissing ++ [lateGuest])).map Host.touched =
      .ok [.readMsg 2] by decide +kernel)
  obtain ⟨host, before, last⟩ := (run_snoc_ok _).mp whole
  obtain ⟨host₁, again, present⟩ := ok_of_map (fun host : Host => host.srv.present)
    (show (Host.run 11 (Host.init 3) fieldsMissing).map (fun host => host.srv.present) =
      .ok [0, 1] by decide +kernel)
  obtain rfl : host = host₁ := Except.ok.inj (before.symm.trans again)
  have steps := kept 11 3 (fieldsMissing ++ [lateGuest]) host' ⟨by decide, by decide⟩ whole
  have reported := ((AllSteps.snoc _ before).mp steps).2 host' last (.readMsg 2)
    (by rw [touched]; exact List.mem_singleton_self _)
  have here : 2 ∈ host.srv.present := reported.1
  rw [present] at here
  exact absurd here (by decide)

end Battleship
