import Battleship.RoomSafety
import Battleship.Library.SlotTable

/-! The server's sessions seen as rooms, what every reachable state of the server
keeps, and what the primitive changes do to the rooms. -/
namespace Battleship

open Runs

namespace ClientArray

theorem add_eq (array : ClientArray) (client : ClientId) :
    array.add client = (SlotTable.put array.clients client).map (⟨array.count + 1, ·⟩) := by
  unfold add SlotTable.put
  cases array.clients.findIdx? Option.isNone <;> rfl

theorem remove_clients (array : ClientArray) (client : ClientId) :
    (array.remove client).clients = SlotTable.erase array.clients client := by
  unfold remove SlotTable.erase
  cases array.clients.findIdx? (fun slot => decide (slot = some client)) <;> rfl

end ClientArray

/-- The session states a player has been told, from the messages queued to him. -/
def news (msgs : List Message) : List GameState := msgs.filterMap fun msg => msg.body.news

namespace Room

def hear (room : Room) (i : PlayerIdx) (body : Body) : Room :=
  { room with told := Function.update room.told i (room.told i ++ body.news.toList) }

def hearAll (room : Room) (body : Body) : Room :=
  { room with told := fun i =>
      if (room.session.players i).isSome then room.told i ++ body.news.toList else room.told i }

end Room

namespace Server

def room (srv : Server) (s : SessionId) : Room where
  session := srv.sessions s
  pending := { p | ∃ h ∈ srv.timeoutHandlers,
    h.id = p.1 ∧ h.kind = p.2 ∧ h.session = s ∧ h.elapsed = false }
  told := fun i =>
    match (srv.sessions s).players i with
    | none => []
    | some c => news (srv.toSendMsg c)

@[simp] theorem room_session (srv : Server) (s : SessionId) :
    (srv.room s).session = srv.sessions s := rfl

structure Seats (srv : Server) : Prop where
  seat : ∀ s i c, (srv.sessions s).players i = some c → srv.clients c = some ⟨some s⟩
  member : ∀ s c, srv.clients c = some ⟨some s⟩ → ∃ i, (srv.sessions s).players i = some c
  unborn : ∀ s, srv.sessionCount ≤ s → srv.sessions s = Session.new
  few : srv.sessionCount ≤ gameCount
  unknown : ∀ c, srv.nextClient ≤ c → srv.clients c = none
  queue : SlotTable.Holds srv.clientsQueue.clients clientQueueLen
    fun c => srv.clients c = some ⟨none⟩
  inGame : SlotTable.Holds srv.clientsInGame.clients (gameCount * 2)
    fun c => ∃ s, srv.clients c = some ⟨some s⟩

structure Handlers (srv : Server) : Prop where
  known : ∀ h ∈ srv.timeoutHandlers, h.id < srv.nextHandler
  unique : ∀ h ∈ srv.timeoutHandlers, ∀ h' ∈ srv.timeoutHandlers, h.id = h'.id → h = h'
  owner : ∀ h ∈ srv.timeoutHandlers, h.session < srv.sessionCount

structure Sound (srv : Server) : Prop where
  seats : srv.Seats
  handlers : srv.Handlers
  apart : ∀ s, (srv.sessions s).Apart

theorem Seats.born {srv : Server} (seats : srv.Seats) {s : SessionId} {i : PlayerIdx}
    {c : ClientId} (seated : (srv.sessions s).players i = some c) : s < srv.sessionCount := by
  by_contra late
  rw [seats.unborn s (Nat.not_lt.mp late)] at seated
  cases seated

theorem Seats.alive {srv : Server} (seats : srv.Seats) {s : SessionId} {i : PlayerIdx}
    {c : ClientId} (seated : (srv.sessions s).players i = some c) : srv.clients c ≠ none := by
  simp [seats.seat s i c seated]

theorem Sound.one_seat {srv : Server} (sound : srv.Sound) {s s' : SessionId} {i i' : PlayerIdx}
    {c : ClientId} (here : (srv.sessions s).players i = some c)
    (there : (srv.sessions s').players i' = some c) : s = s' ∧ i = i' := by
  have session := (sound.seats.seat s i c here).symm.trans (sound.seats.seat s' i' c there)
  obtain rfl : s = s' := by simpa using session
  refine ⟨rfl, ?_⟩
  have apart := sound.apart s c
  fin_cases i <;> fin_cases i' <;> simp_all

theorem Sound.fresh {srv : Server} (sound : srv.Sound) (s : SessionId) :
    (srv.room s).Fresh srv.nextHandler := by
  rintro kind ⟨h, member, id, _⟩
  exact absurd (sound.handlers.known h member) (by simp [id])

/-- The server shows `room` as its session `s` and the other sessions as `base` does. -/
structure Shows (base : SessionId → Room) (s : SessionId) (room : Room) (srv : Server) :
    Prop where
  sound : srv.Sound
  born : s < srv.sessionCount
  here : srv.room s = room
  others : ∀ s', s' ≠ s → srv.room s' = base s'

/-- The faults that are no misbehaviour of the server: the given random numbers are
used up, or the event cannot occur. -/
def Excused (fault : Fault) : Prop := fault = .drawsExhausted ∨ fault = .notEnabled

abbrev Does (x : Except Fault Server) (post : Server → Prop) : Prop := Ends Excused x post

theorem Shows.session {base : SessionId → Room} {s : SessionId} {room : Room} {srv : Server}
    (shows_ : Shows base s room srv) : srv.sessions s = room.session :=
  congrArg Room.session shows_.here

theorem Shows.start {srv : Server} (sound : srv.Sound) {s : SessionId}
    (born : s < srv.sessionCount) : Shows srv.room s (srv.room s) srv :=
  ⟨sound, born, rfl, fun _ _ => rfl⟩

theorem Shows.setSession {base : SessionId → Room} {s : SessionId} {room : Room} {srv : Server}
    (shows_ : Shows base s room srv) (session : Session)
    (same : session.players = room.session.players) :
    Shows base s (room.withSession session) (srv.setSession s session) := by
  obtain ⟨⟨seats, handlers, apart⟩, born, rfl, others⟩ := shows_
  have players (s' : SessionId) :
      ((srv.setSession s session).sessions s').players = (srv.sessions s').players := by
    by_cases here : s' = s
    · subst here
      simpa [Server.setSession] using same
    · simp [Server.setSession, here]
  have elsewhere (s' : SessionId) (other : s' ≠ s) :
      (srv.setSession s session).sessions s' = srv.sessions s' := by
    simp [Server.setSession, other]
  refine ⟨⟨⟨?_, ?_, ?_, seats.few, seats.unknown, seats.queue, seats.inGame⟩,
    ⟨handlers.known, handlers.unique, handlers.owner⟩, ?_⟩, born, ?_, ?_⟩
  · exact fun s' i c seated => seats.seat s' i c (players s' ▸ seated)
  · exact fun s' c member => by simpa [players s'] using seats.member s' c member
  · intro s' late
    rw [elsewhere s' (by rintro rfl; exact absurd born (Nat.not_lt.mpr late))]
    exact seats.unborn s' late
  · intro s' c
    rw [players s']
    exact apart s' c
  · refine Room.ext ?_ rfl ?_
    · simp [Server.setSession]
    · funext i
      simp [Server.room, Room.withSession, players s]
      rfl
  · intro s' other
    rw [← others s' other]
    refine Room.ext (elsewhere s' other) rfl ?_
    funext i
    simp [Server.room, players s']
    rfl

theorem Shows.setGameState {base : SessionId → Room} {s : SessionId} {room : Room} {srv : Server}
    (shows_ : Shows base s room srv) (state : GameState) :
    Shows base s (room.withSession { room.session with state := state })
      (srv.setGameState s state) := by
  unfold Server.setGameState
  rw [shows_.session]
  exact shows_.setSession _ rfl

def push (srv : Server) (client : ClientId) (msg : Message) : Server :=
  { srv with toSendMsg := Function.update srv.toSendMsg client (srv.toSendMsg client ++ [msg]) }

theorem sendMsg_alive {srv : Server} {client : ClientId} (alive : srv.clients client ≠ none)
    (msg : Message) : srv.sendMsg client msg = .ok (srv.push client msg) := by
  unfold sendMsg
  cases known : srv.clients client with
  | none => exact absurd known alive
  | some _ => rfl

theorem Sound.push {srv : Server} (sound : srv.Sound) (client : ClientId) (msg : Message) :
    (srv.push client msg).Sound :=
  have ⟨⟨seat, member, unborn, few, unknown, queue, inGame⟩, ⟨known, unique, owner⟩, apart⟩ := sound
  ⟨⟨seat, member, unborn, few, unknown, queue, inGame⟩, ⟨known, unique, owner⟩, apart⟩

@[simp] theorem news_append (msgs : List Message) (msg : Message) :
    news (msgs ++ [msg]) = news msgs ++ msg.body.news.toList := by
  cases conveyed : msg.body.news <;> simp [news, conveyed]

theorem room_push_seated {srv : Server} (sound : srv.Sound) {s : SessionId} {i : PlayerIdx}
    {c : ClientId} (seated : (srv.sessions s).players i = some c) (msg : Message) :
    (srv.push c msg).room s = (srv.room s).hear i msg.body := by
  refine Room.ext rfl rfl ?_
  funext j
  by_cases same : j = i
  · subst same
    simp [Server.room, Server.push, Room.hear, seated]
  · simp only [Server.room, Server.push, Room.hear, Function.update_of_ne same]
    cases there : (srv.sessions s).players j with
    | none => rfl
    | some d =>
        have other : d ≠ c := by
          rintro rfl
          exact same (sound.one_seat there seated).2
        simp [Function.update_of_ne other]

theorem room_push_other {srv : Server} {s : SessionId} {c : ClientId}
    (absent : ∀ i, (srv.sessions s).players i ≠ some c) (msg : Message) :
    (srv.push c msg).room s = srv.room s := by
  refine Room.ext rfl rfl ?_
  funext j
  simp only [Server.room, Server.push]
  cases there : (srv.sessions s).players j with
  | none => rfl
  | some d =>
      have other : d ≠ c := by
        rintro rfl
        exact absent j there
      simp [Function.update_of_ne other]

theorem room_push_silent (srv : Server) (s : SessionId) (c : ClientId) {msg : Message}
    (silent : msg.body.news = none) : (srv.push c msg).room s = srv.room s := by
  refine Room.ext rfl rfl ?_
  funext j
  simp only [Server.room, Server.push]
  cases (srv.sessions s).players j with
  | none => rfl
  | some d => by_cases same : d = c <;> simp [Function.update, same, silent]

theorem Shows.push {base : SessionId → Room} {s : SessionId} {room : Room} {srv : Server}
    (shows_ : Shows base s room srv) {i : PlayerIdx} {c : ClientId}
    (seated : room.session.players i = some c) (msg : Message) :
    Shows base s (room.hear i msg.body) (srv.push c msg) := by
  obtain ⟨sound, born, rfl, others⟩ := shows_
  refine ⟨sound.push c msg, born, room_push_seated sound seated msg, fun s' other => ?_⟩
  rw [← others s' other]
  exact room_push_other (fun j there => other (sound.one_seat there seated).1) msg

theorem mem_pending {srv : Server} {s : SessionId} {id : HandlerId} {kind : TimeoutKind} :
    (id, kind) ∈ (srv.room s).pending ↔ ∃ h ∈ srv.timeoutHandlers,
      h.id = id ∧ h.kind = kind ∧ h.session = s ∧ h.elapsed = false := Iff.rfl

theorem Handlers.add {srv : Server} (handlers : srv.Handlers) {s : SessionId}
    (born : s < srv.sessionCount) (kind : TimeoutKind) (sec : Int) :
    (srv.addTimeoutHandler kind s sec).Handlers := by
  refine ⟨fun h added => ?_, fun h added h' added' same => ?_, fun h added => ?_⟩
  · rcases List.mem_append.mp added with old | new
    · exact Nat.lt_succ_of_lt (handlers.known h old)
    · obtain rfl := List.mem_singleton.mp new
      exact Nat.lt_succ_self _
  · rcases List.mem_append.mp added with old | new <;>
      rcases List.mem_append.mp added' with old' | new'
    · exact handlers.unique h old h' old' same
    · obtain rfl := List.mem_singleton.mp new'
      exact absurd (handlers.known h old) (by simp [same])
    · obtain rfl := List.mem_singleton.mp new
      exact absurd (handlers.known h' old') (by simp [← same])
    · exact (List.mem_singleton.mp new).trans (List.mem_singleton.mp new').symm
  · rcases List.mem_append.mp added with old | new
    · exact handlers.owner h old
    · obtain rfl := List.mem_singleton.mp new
      exact born

theorem Shows.addTimeoutHandler {base : SessionId → Room} {s : SessionId} {room : Room}
    {srv : Server} (shows_ : Shows base s room srv) (kind : TimeoutKind) {sec : Int}
    (long : 0 < sec) :
    room.Fresh srv.nextHandler ∧
      Shows base s (room.arm srv.nextHandler kind) (srv.addTimeoutHandler kind s sec) := by
  obtain ⟨sound, born, rfl, others⟩ := shows_
  obtain ⟨seat, member, unborn, few, unknown, queue, inGame⟩ := sound.seats
  have running : TimeoutHandler.elapsed ⟨sec, 0⟩ = false := by
    simp [TimeoutHandler.elapsed, long]
  refine ⟨sound.fresh s, ⟨⟨seat, member, unborn, few, unknown, queue, inGame⟩,
    sound.handlers.add born kind sec, sound.apart⟩, born, ?_, fun s' other => ?_⟩
  · refine Room.ext rfl (Set.ext fun ⟨id, k⟩ => ?_) rfl
    simp only [mem_pending, Server.addTimeoutHandler, Room.mem_arm, List.mem_append,
      List.mem_singleton, Prod.mk.injEq]
    constructor
    · rintro ⟨h, old | rfl, rfl, rfl, owned, live⟩
      · exact Or.inr ⟨h, old, rfl, rfl, owned, live⟩
      · exact Or.inl ⟨rfl, rfl⟩
    · rintro (⟨rfl, rfl⟩ | ⟨h, old, rfl, rfl, owned, live⟩)
      · exact ⟨_, Or.inr rfl, rfl, rfl, rfl, running⟩
      · exact ⟨h, Or.inl old, rfl, rfl, owned, live⟩
  · rw [← others s' other]
    refine Room.ext rfl (Set.ext fun ⟨id, k⟩ => ?_) rfl
    simp only [mem_pending, Server.addTimeoutHandler, List.mem_append, List.mem_singleton]
    constructor
    · rintro ⟨h, old | rfl, rfl, rfl, owned, live⟩
      · exact ⟨h, old, rfl, rfl, owned, live⟩
      · exact absurd owned.symm other
    · rintro ⟨h, old, rfl, rfl, owned, live⟩
      exact ⟨h, Or.inl old, rfl, rfl, owned, live⟩

theorem mem_setTimer {srv : Server} {id : HandlerId} {timer : TimeoutHandler} {h : Handler} :
    h ∈ (srv.setTimer id timer).timeoutHandlers ↔
      ∃ h₀ ∈ srv.timeoutHandlers, h = if h₀.id = id then { h₀ with timer := timer } else h₀ := by
  simp [setTimer, eq_comm]

theorem Handlers.setTimer {srv : Server} (handlers : srv.Handlers) (id : HandlerId)
    (timer : TimeoutHandler) : (srv.setTimer id timer).Handlers := by
  refine ⟨fun h changed => ?_, fun h changed h' changed' same => ?_, fun h changed => ?_⟩
  · obtain ⟨h₀, member, rfl⟩ := mem_setTimer.mp changed
    split_ifs <;> exact handlers.known h₀ member
  · obtain ⟨h₀, member, rfl⟩ := mem_setTimer.mp changed
    obtain ⟨h₁, member', rfl⟩ := mem_setTimer.mp changed'
    have ids : h₀.id = h₁.id := by
      split_ifs at same <;> exact same
    obtain rfl := handlers.unique h₀ member h₁ member' ids
    rfl
  · obtain ⟨h₀, member, rfl⟩ := mem_setTimer.mp changed
    split_ifs <;> exact handlers.owner h₀ member

theorem Sound.setTimer {srv : Server} (sound : srv.Sound) (id : HandlerId)
    (timer : TimeoutHandler) : (srv.setTimer id timer).Sound :=
  have ⟨seat, member, unborn, few, unknown, queue, inGame⟩ := sound.seats
  ⟨⟨seat, member, unborn, few, unknown, queue, inGame⟩, sound.handlers.setTimer id timer,
    sound.apart⟩

theorem room_setTimer_elapsed (srv : Server) (s : SessionId) (id : HandlerId)
    {timer : TimeoutHandler} (elapsed : timer.elapsed = true) :
    (srv.setTimer id timer).room s = (srv.room s).without id := by
  refine Room.ext rfl (Set.ext fun ⟨id', k⟩ => ?_) rfl
  simp only [mem_pending, mem_setTimer, Room.mem_without]
  constructor
  · rintro ⟨h, ⟨h₀, member, rfl⟩, rfl, rfl, owned, live⟩
    split_ifs at * with hit
    · simp [elapsed] at live
    · exact ⟨⟨h₀, member, rfl, rfl, owned, live⟩, hit⟩
  · rintro ⟨⟨h, member, rfl, rfl, owned, live⟩, other⟩
    exact ⟨h, ⟨h, member, by simp [other]⟩, rfl, rfl, owned, live⟩

theorem room_setTimer_running {srv : Server} (handlers : srv.Handlers) (s : SessionId)
    {handler : Handler} (member : handler ∈ srv.timeoutHandlers) {timer : TimeoutHandler}
    (same : timer.elapsed = handler.elapsed) :
    (srv.setTimer handler.id timer).room s = srv.room s := by
  refine Room.ext rfl (Set.ext fun ⟨id', k⟩ => ?_) rfl
  simp only [mem_pending, mem_setTimer]
  constructor
  · rintro ⟨h, ⟨h₀, inside, rfl⟩, rfl, rfl, owned, live⟩
    split_ifs at * with hit
    · obtain rfl := handlers.unique h₀ inside handler member hit
      exact ⟨h₀, inside, rfl, rfl, owned, same ▸ live⟩
    · exact ⟨h₀, inside, rfl, rfl, owned, live⟩
  · rintro ⟨h, inside, rfl, rfl, owned, live⟩
    refine ⟨_, ⟨h, inside, rfl⟩, ?_⟩
    split_ifs with hit
    · obtain rfl := handlers.unique h inside handler member hit
      exact ⟨rfl, rfl, owned, same.trans live⟩
    · exact ⟨rfl, rfl, owned, live⟩

/-- A handler that is pending for one session is pending for no other. -/
theorem Sound.without_other {srv : Server} (sound : srv.Sound) {s s' : SessionId}
    (other : s' ≠ s) {handler : Handler} (member : handler ∈ srv.timeoutHandlers)
    (owned : handler.session = s) : (srv.room s').without handler.id = srv.room s' := by
  refine Room.ext rfl (Set.ext fun ⟨id, k⟩ => ?_) rfl
  simp only [Room.mem_without, mem_pending, and_iff_left_iff_imp]
  rintro ⟨h, inside, rfl, rfl, elsewhere, live⟩ same
  obtain rfl := sound.handlers.unique h inside handler member same
  exact other (elsewhere.symm.trans owned)

theorem Shows.stopTimeout {allowed : Fault → Prop} {base : SessionId → Room} {s : SessionId}
    {room : Room} {srv : Server} (shows_ : Shows base s room srv) {t : HandlerId}
    (known : ∃ handler ∈ srv.timeoutHandlers, handler.id = t ∧ handler.session = s) :
    Ends allowed (srv.stopTimeout t) (Shows base s (room.without t)) := by
  obtain ⟨sound, born, rfl, others⟩ := shows_
  obtain ⟨handler, member, rfl, owned⟩ := known
  unfold Server.stopTimeout
  split
  · rename_i absent
    have := List.find?_eq_none.mp absent handler member
    simp at this
  · rename_i found _
    refine ⟨sound.setTimer _ _, born, room_setTimer_elapsed _ _ _ rfl, fun s' other => ?_⟩
    rw [room_setTimer_elapsed _ _ _ rfl, sound.without_other other member owned]
    exact others s' other

theorem Sound.dropElapsed {srv : Server} (sound : srv.Sound) (id : HandlerId) :
    (srv.dropElapsed id).Sound := by
  obtain ⟨seat, member, unborn, few, unknown, queue, inGame⟩ := sound.seats
  obtain ⟨known, unique, owner⟩ := sound.handlers
  refine ⟨⟨seat, member, unborn, few, unknown, queue, inGame⟩, ⟨?_, ?_, ?_⟩, sound.apart⟩
  · exact fun h kept => known h (List.mem_of_mem_filter kept)
  · exact fun h kept h' kept' =>
      unique h (List.mem_of_mem_filter kept) h' (List.mem_of_mem_filter kept')
  · exact fun h kept => owner h (List.mem_of_mem_filter kept)

theorem room_dropElapsed (srv : Server) (s : SessionId) (id : HandlerId) :
    (srv.dropElapsed id).room s = srv.room s := by
  refine Room.ext rfl (Set.ext fun ⟨id', k⟩ => ?_) rfl
  simp only [mem_pending, Server.dropElapsed, List.mem_filter]
  constructor
  · rintro ⟨h, ⟨member, _⟩, facts⟩
    exact ⟨h, member, facts⟩
  · rintro ⟨h, member, rfl, rfl, owned, live⟩
    exact ⟨h, ⟨member, by simp [live]⟩, rfl, rfl, owned, live⟩

end Server
end Battleship
