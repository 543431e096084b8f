import Battleship.ServerRoom

/-! Clients come and go: accepting a connection, joining a session, leaving it and
losing the connection, and what each does to the rooms. -/
namespace Battleship

open Runs

namespace Session

theorem getPlayerIndex_eq {session : Session} (apart : session.Apart) {i : PlayerIdx}
    {c : ClientId} : session.getPlayerIndex c = some i ↔ session.players i = some c := by
  have apart := apart c
  unfold getPlayerIndex
  fin_cases i <;> split_ifs <;> simp_all

def freeIdx (session : Session) : PlayerIdx := if session.players 0 = none then 0 else 1

def taken (session : Session) (c : ClientId) : Session :=
  { session with
    players := Function.update session.players session.freeIdx (some c)
    state := if session.state = .noVacantGame then .waitPlayer else .waitPreparation }

theorem freeIdx_free {session : Session} (vacant : session.isVacant = true) :
    session.players session.freeIdx = none := by
  have free := of_decide_eq_true vacant
  rw [Fin.exists_fin_two] at free
  unfold freeIdx
  split_ifs with first
  · exact first
  · exact free.resolve_left first

theorem setPlayer_eq {session : Session} {c : ClientId} (absent : ∀ i, session.players i ≠ some c) :
    session.setPlayer c = if session.isVacant then some (session.taken c) else none := by
  have stranger : session.hasPlayer c = false := by simpa [hasPlayer] using absent
  unfold setPlayer
  cases session.isVacant <;> simp [stranger, taken, freeIdx]

end Session

namespace Server

structure Same (base : SessionId → Room) (srv : Server) : Prop where
  sound : srv.Sound
  rooms : ∀ s, srv.room s = base s

theorem Same.shows {base : SessionId → Room} {srv : Server} (same : Same base srv)
    {s : SessionId} (born : s < srv.sessionCount) : Shows base s (base s) srv :=
  ⟨same.sound, born, same.rooms s, fun s' _ => same.rooms s'⟩

theorem Same.push {base : SessionId → Room} {srv : Server} (same : Same base srv) (c : ClientId)
    {msg : Message} (silent : msg.body.news = none) : Same base (srv.push c msg) :=
  ⟨same.sound.push c msg, fun s => (room_push_silent srv s c silent).trans (same.rooms s)⟩

theorem Shows.push_silent {base : SessionId → Room} {s : SessionId} {room : Room} {srv : Server}
    (shows_ : Shows base s room srv) (c : ClientId) {msg : Message}
    (silent : msg.body.news = none) : Shows base s room (srv.push c msg) :=
  ⟨shows_.sound.push c msg, shows_.born, (room_push_silent srv s c silent).trans shows_.here,
    fun s' other => (room_push_silent srv s' c silent).trans (shows_.others s' other)⟩

def gone (srv : Server) (client : ClientId) : Server :=
  { srv with
    clientsQueue := srv.clientsQueue.remove client
    clientsInGame := srv.clientsInGame.remove client
    clients := Function.update srv.clients client none
    toSendMsg := Function.update srv.toSendMsg client [] }

theorem disconnectClient_member {srv : Server} (sound : srv.Sound) {s : SessionId}
    {i : PlayerIdx} {c : ClientId} (seated : (srv.sessions s).players i = some c) :
    srv.disconnectClient c =
      .ok ((srv.setSession s ((srv.sessions s).freeSlot i)).gone c) := by
  have slot := (Session.getPlayerIndex_eq (sound.apart s)).mpr seated
  simp [disconnectClient, disconnectFromGameSession, sound.seats.seat s i c seated,
    disconnectPlayer, slot, gone, setSession, Bind.bind, Except.bind]

theorem disconnectClient_alone {srv : Server} {c : ClientId}
    (alone : srv.clients c = some ⟨none⟩) : srv.disconnectClient c = .ok (srv.gone c) := by
  simp [disconnectClient, disconnectFromGameSession, alone, gone, Bind.bind, Except.bind]

theorem connBroken_member {srv : Server} (sound : srv.Sound) {s : SessionId}
    {i : PlayerIdx} {c : ClientId} (seated : (srv.sessions s).players i = some c) :
    srv.connBroken c =
      .ok ((srv.setSession s ((srv.sessions s).freeSlot i)).gone c) := by
  have slot := (Session.getPlayerIndex_eq (sound.apart s)).mpr seated
  simp [connBroken, disconnectClient, disconnectFromGameSession, sound.seats.seat s i c seated,
    disconnectPlayer, slot, gone, setSession, Bind.bind, Except.bind]

theorem connBroken_alone {srv : Server} {c : ClientId}
    (alone : srv.clients c = some ⟨none⟩) : srv.connBroken c = .ok (srv.gone c) := by
  have stays : srv.disconnectFromGameSession c = .ok srv := by
    simp [disconnectFromGameSession, alone]
  rw [connBroken, stays]
  exact disconnectClient_alone alone

/-- Deleting a client whose slots are free keeps the server in order. -/
theorem Sound.gone {srv : Server} (sound : srv.Sound) {sessions : SessionId → Session}
    {c : ClientId} (left : ∀ s i d, (sessions s).players i = some d ↔
      (srv.sessions s).players i = some d ∧ d ≠ c)
    (unborn : ∀ s, srv.sessionCount ≤ s → sessions s = Session.new) :
    (Server.gone { srv with sessions := sessions } c).Sound := by
  have clients (d : ClientId) (client : Client) :
      Function.update srv.clients c none d = some client ↔ srv.clients d = some client ∧ d ≠ c := by
    by_cases same : d = c <;> simp [same]
  refine ⟨⟨?_, ?_, unborn, sound.seats.few, ?_, ?_, ?_⟩, ?_, ?_⟩
  · intro s i d seated
    obtain ⟨old, other⟩ := (left s i d).mp seated
    exact (clients d _).mpr ⟨sound.seats.seat s i d old, other⟩
  · intro s d member
    obtain ⟨old, other⟩ := (clients d _).mp member
    obtain ⟨i, seated⟩ := sound.seats.member s d old
    exact ⟨i, (left s i d).mpr ⟨seated, other⟩⟩
  · intro d late
    have none := sound.seats.unknown d late
    by_cases same : d = c <;> simp [Server.gone, same, none]
  · simp only [Server.gone, ClientArray.remove_clients]
    exact (sound.seats.queue.erase c).congr fun d => (clients d _).symm
  · simp only [Server.gone, ClientArray.remove_clients]
    refine (sound.seats.inGame.erase c).congr fun d => ?_
    simp only [clients, exists_and_right]
  · exact ⟨sound.handlers.known, sound.handlers.unique, sound.handlers.owner⟩
  · intro s d first second
    exact sound.apart s d ((left s 0 d).mp first).1 ((left s 1 d).mp second).1

theorem room_gone {srv : Server} {s : SessionId} {c : ClientId}
    (absent : ∀ i, (srv.sessions s).players i ≠ some c) : (srv.gone c).room s = srv.room s := by
  refine Room.ext rfl rfl ?_
  funext j
  simp only [Server.room, Server.gone]
  cases there : (srv.sessions s).players j with
  | none => rfl
  | some d =>
      have other : d ≠ c := by
        rintro rfl
        exact absent j there
      simp [Function.update_of_ne other]

theorem freeSlot_players {session : Session} (apart : session.Apart) {i : PlayerIdx}
    {c : ClientId} (seated : session.players i = some c) (j : PlayerIdx) (d : ClientId) :
    (session.freeSlot i).players j = some d ↔ session.players j = some d ∧ d ≠ c := by
  by_cases same : j = i
  · subst same
    simp [Session.freeSlot, seated, eq_comm]
  · simp only [Session.freeSlot, Function.update_of_ne same, iff_self_and]
    rintro there rfl
    have := apart d
    fin_cases i <;> fin_cases j <;> simp_all

theorem Shows.left {base : SessionId → Room} {s : SessionId} {room : Room} {srv : Server}
    (shows_ : Shows base s room srv) {i : PlayerIdx} {c : ClientId}
    (seated : room.session.players i = some c) :
    Shows base s (room.leave i)
      ((srv.setSession s ((srv.sessions s).freeSlot i)).gone c) := by
  obtain ⟨sound, born, rfl, others⟩ := shows_
  have seated : (srv.sessions s).players i = some c := seated
  refine ⟨sound.gone (fun s' j d => ?_) fun s' late => ?_, born, ?_, fun s' other => ?_⟩
  · by_cases here : s' = s
    · subst here
      simpa using freeSlot_players (sound.apart s') seated j d
    · simp only [Function.update_of_ne here, iff_self_and]
      -- A client sits in one slot of one session.
      rintro there rfl
      exact here (sound.one_seat there seated).1
  · have here : s' ≠ s := by
      rintro rfl
      exact absurd born (Nat.not_lt.mpr late)
    simpa [here] using sound.seats.unborn s' late
  · refine Room.ext (by simp [Server.setSession, Server.gone]) rfl ?_
    funext j
    simp only [Server.room, Server.gone, Server.setSession, Function.update_self, Room.leave,
      Session.freeSlot]
    by_cases same : j = i
    · subst same
      simp
    · simp only [Function.update_of_ne same]
      cases there : (srv.sessions s).players j with
      | none => rfl
      | some d =>
          have other : d ≠ c := by
            rintro rfl
            exact same (sound.one_seat there seated).2
          simp [Function.update_of_ne other]
  · rw [← others s' other]
    have elsewhere : ((srv.setSession s ((srv.sessions s).freeSlot i)).sessions s') =
        srv.sessions s' := by simp [Server.setSession, other]
    rw [room_gone fun j there => other (sound.one_seat (elsewhere ▸ there) seated).1]
    refine Room.ext elsewhere rfl ?_
    funext j
    simp [Server.room, elsewhere]
    rfl

theorem Same.left {base : SessionId → Room} {srv : Server} (same : Same base srv) {c : ClientId}
    (alone : ∀ s, srv.clients c ≠ some ⟨some s⟩) : Same base (srv.gone c) := by
  obtain ⟨sound, rooms⟩ := same
  have absent (s : SessionId) (i : PlayerIdx) : (srv.sessions s).players i ≠ some c :=
    fun seated => alone s (sound.seats.seat s i c seated)
  refine ⟨sound.gone (fun s i d => ?_) sound.seats.unborn, fun s => ?_⟩
  · refine (and_iff_left_of_imp ?_).symm
    rintro seated rfl
    exact absent s i seated
  · exact (room_gone (absent s)).trans (rooms s)

theorem Sound.accept {srv : Server} (sound : srv.Sound) :
    Same srv.room srv.acceptNewConnection := by
  unfold acceptNewConnection
  split
  · exact ⟨sound, fun _ => rfl⟩
  · rename_i room_left
    have new : srv.clients srv.nextClient = none := sound.seats.unknown _ le_rfl
    have clients (d : ClientId) (client : Client) :
        Function.update srv.clients srv.nextClient (some ⟨none⟩) d = some client ↔
          srv.clients d = some client ∨ client = ⟨none⟩ ∧ d = srv.nextClient := by
      by_cases same : d = srv.nextClient
      · subst same
        simp [new, eq_comm]
      · simp [same]
    -- The queue is not full, so the newcomer finds a slot.
    obtain ⟨queue, stored⟩ :
        ∃ queue, SlotTable.put srv.clientsQueue.clients srv.nextClient = some queue := by
      refine Option.ne_none_iff_exists'.mp fun full => room_left ?_
      exact List.all_eq_true.mpr (SlotTable.put_eq_none.mp full)
    refine ⟨⟨⟨?_, ?_, sound.seats.unborn, sound.seats.few, ?_, ?_, ?_⟩,
      ⟨sound.handlers.known, sound.handlers.unique, sound.handlers.owner⟩, sound.apart⟩,
      fun _ => rfl⟩
    · exact fun s i c seated => (clients c _).mpr (Or.inl (sound.seats.seat s i c seated))
    · intro s c member
      rcases (clients c _).mp member with old | ⟨new, _⟩
      · exact sound.seats.member s c old
      · cases new
    · intro c late
      have other : c ≠ srv.nextClient := Nat.ne_of_gt late
      simpa [other] using sound.seats.unknown c (Nat.le_of_succ_le late)
    · simp only [ClientArray.add_eq, stored, Option.map_some, Option.getD_some]
      refine (sound.seats.queue.put (by simp [new]) stored).congr fun d => ?_
      simpa using (clients d ⟨none⟩).symm
    · refine sound.seats.inGame.congr fun d => exists_congr fun s => ?_
      simpa using (clients d ⟨some s⟩).symm

/-- There is a slot among the clients in the game for everyone who finds a seat. -/
theorem Sound.place {srv : Server} (sound : srv.Sound) {s : SessionId} {i : PlayerIdx}
    (born : s < srv.sessionCount) (free : (srv.sessions s).players i = none) (c : ClientId) :
    ∃ slots, SlotTable.put srv.clientsInGame.clients c = some slots := by
  classical
  have small : s < gameCount := lt_of_lt_of_le born sound.seats.few
  have sits (d : ClientId) (member : ∃ s, srv.clients d = some ⟨some s⟩) :
      ∃ place : Fin gameCount × PlayerIdx,
        (srv.sessions place.1).players place.2 = some d := by
    obtain ⟨t, client⟩ := member
    obtain ⟨j, seated⟩ := sound.seats.member t d client
    exact ⟨(⟨t, lt_of_lt_of_le (sound.seats.born seated) sound.seats.few⟩, j), seated⟩
  let place (d : ClientId) : Fin gameCount × PlayerIdx :=
    if member : ∃ s, srv.clients d = some ⟨some s⟩ then (sits d member).choose
    else (⟨s, small⟩, i)
  have seated (d : ClientId) (member : ∃ s, srv.clients d = some ⟨some s⟩) :
      (srv.sessions (place d).1).players (place d).2 = some d := by
    simp only [place, dif_pos member]
    exact (sits d member).choose_spec
  refine sound.seats.inGame.put_of_free (by simp) place
    ?_ (⟨s, small⟩, i) ?_ c
  · intro d e member member' same
    have there := seated d member
    rw [same, seated e member'] at there
    exact (Option.some.inj there).symm
  · intro d member here
    have there := seated d member
    rw [here, free] at there
    cases there

/-- What `set_player` and the change of the client arrays make of the server. -/
def joined (srv : Server) (c : ClientId) (s : SessionId) (session : Session)
    (slots : List (Option ClientId)) : Server :=
  { srv.setSession s session with
    clients := Function.update srv.clients c (some ⟨some s⟩)
    clientsInGame := ⟨srv.clientsInGame.count + 1, slots⟩
    clientsQueue := srv.clientsQueue.remove c }

section Joined

variable {srv : Server} {c : ClientId} {s : SessionId} {i : PlayerIdx} {session : Session}
  {slots : List (Option ClientId)}

theorem joined_clients (d : ClientId) (client : Client) :
    (srv.joined c s session slots).clients d = some client ↔
      srv.clients d = some client ∧ d ≠ c ∨ client = ⟨some s⟩ ∧ d = c := by
  simp only [Server.joined]
  by_cases same : d = c <;> simp [same, eq_comm]

theorem joined_players (free : (srv.sessions s).players i = none)
    (players : session.players = Function.update (srv.sessions s).players i (some c))
    (t : SessionId) (j : PlayerIdx) (d : ClientId) :
    ((srv.joined c s session slots).sessions t).players j = some d ↔
      (srv.sessions t).players j = some d ∨ t = s ∧ j = i ∧ d = c := by
  by_cases here : t = s
  · subst here
    by_cases same : j = i
    · subst same
      have taken : session.players j = some c := by simp [players]
      simp [Server.joined, Server.setSession, taken, free, eq_comm]
    · simp [Server.joined, Server.setSession, players, same]
  · simp [Server.joined, Server.setSession, here]

theorem joined_elsewhere {t : SessionId} (other : t ≠ s) :
    (srv.joined c s session slots).sessions t = srv.sessions t := by
  simp [Server.joined, Server.setSession, other]

theorem Sound.absent (sound : srv.Sound) (alone : srv.clients c = some ⟨none⟩) (t : SessionId)
    (j : PlayerIdx) : (srv.sessions t).players j ≠ some c := by
  intro seated
  cases alone.symm.trans (sound.seats.seat t j c seated)

theorem Seats.joined (sound : srv.Sound) (born : s < srv.sessionCount)
    (alone : srv.clients c = some ⟨none⟩) (free : (srv.sessions s).players i = none)
    (players : session.players = Function.update (srv.sessions s).players i (some c))
    (stored : SlotTable.put srv.clientsInGame.clients c = some slots) :
    (srv.joined c s session slots).Seats := by
  constructor
  · intro t j d seated
    apply (joined_clients d _).mpr
    rcases (joined_players free players t j d).mp seated with old | ⟨rfl, rfl, rfl⟩
    · refine Or.inl ⟨sound.seats.seat t j d old, ?_⟩
      rintro rfl
      exact sound.absent alone t j old
    · exact Or.inr ⟨rfl, rfl⟩
  · intro t d member
    rcases (joined_clients d _).mp member with ⟨old, _⟩ | ⟨new, rfl⟩
    · obtain ⟨j, seated⟩ := sound.seats.member t d old
      exact ⟨j, (joined_players free players t j d).mpr (Or.inl seated)⟩
    · obtain rfl : t = s := by simpa using new
      exact ⟨i, (joined_players free players t i d).mpr (Or.inr ⟨rfl, rfl, rfl⟩)⟩
  · intro t late
    rw [joined_elsewhere (by rintro rfl; exact absurd born (Nat.not_lt.mpr late))]
    exact sound.seats.unborn t late
  · exact sound.seats.few
  · intro d late
    have none := sound.seats.unknown d late
    have other : d ≠ c := by
      rintro rfl
      cases alone.symm.trans none
    simpa [Server.joined, other] using none
  · have left : (srv.joined c s session slots).clientsQueue = srv.clientsQueue.remove c := rfl
    rw [left, ClientArray.remove_clients]
    refine (sound.seats.queue.erase c).congr fun d => ?_
    rw [joined_clients]
    simp
  · have stays := sound.seats.inGame.put (x := c) (by simp [alone]) stored
    refine stays.congr fun d => ?_
    simp only [joined_clients]
    constructor
    · rintro (⟨t, old⟩ | rfl)
      · refine ⟨t, Or.inl ⟨old, ?_⟩⟩
        rintro rfl
        cases alone.symm.trans old
      · exact ⟨s, Or.inr ⟨rfl, rfl⟩⟩
    · rintro ⟨t, ⟨old, _⟩ | ⟨_, rfl⟩⟩
      · exact Or.inl ⟨t, old⟩
      · exact Or.inr rfl

theorem Sound.joined (sound : srv.Sound) (born : s < srv.sessionCount)
    (alone : srv.clients c = some ⟨none⟩) (free : (srv.sessions s).players i = none)
    (players : session.players = Function.update (srv.sessions s).players i (some c))
    (stored : SlotTable.put srv.clientsInGame.clients c = some slots) :
    (srv.joined c s session slots).Sound := by
  constructor
  · exact Seats.joined sound born alone free players stored
  · exact ⟨sound.handlers.known, sound.handlers.unique, sound.handlers.owner⟩
  · intro t d first second
    rcases (joined_players free players t 0 d).mp first with old | ⟨_, left, same⟩ <;>
      rcases (joined_players free players t 1 d).mp second with old' | ⟨_, right, same'⟩
    · exact sound.apart t d old old'
    · exact sound.absent alone t 0 (same' ▸ old)
    · exact sound.absent alone t 1 (same ▸ old')
    · exact absurd (left.trans right.symm) (by decide)

end Joined

theorem Shows.joined {base : SessionId → Room} {s : SessionId} {room : Room} {srv : Server}
    (shows_ : Shows base s room srv) {c : ClientId} (alone : srv.clients c = some ⟨none⟩)
    {i : PlayerIdx} (free : room.session.players i = none) {session : Session}
    (players : session.players = Function.update room.session.players i (some c))
    {slots : List (Option ClientId)}
    (stored : SlotTable.put srv.clientsInGame.clients c = some slots) :
    Shows base s ((room.seat i c (news (srv.toSendMsg c))).withSession session)
      (srv.joined c s session slots) := by
  obtain ⟨sound, born, rfl, others⟩ := shows_
  have free : (srv.sessions s).players i = none := free
  constructor
  · exact sound.joined born alone free players stored
  · exact born
  · refine Room.ext (by simp [Server.joined, Server.setSession]) rfl ?_
    funext j
    simp only [Server.room, Server.joined, Server.setSession, Function.update_self, players,
      Room.seat, Room.withSession]
    by_cases same : j = i
    · subst same
      simp
    · simp [same]
  · intro t other
    have kept : (srv.joined c s session slots).sessions t = srv.sessions t := joined_elsewhere other
    rw [← others t other]
    refine Room.ext kept rfl ?_
    funext j
    simp only [Server.room, kept]
    rfl

theorem setGameSession_alone {srv : Server} {c : ClientId} (alone : srv.clients c = some ⟨none⟩)
    {s : SessionId} (absent : ∀ i, (srv.sessions s).players i ≠ some c) :
    srv.setGameSession c s = if (srv.sessions s).isVacant then
      some { srv.setSession s ((srv.sessions s).taken c) with
        clients := Function.update srv.clients c (some ⟨some s⟩) }
    else none := by
  unfold setGameSession
  rw [alone]
  simp only [Session.setPlayer_eq absent]
  cases (srv.sessions s).isVacant <;> rfl

/-- The server after `sessions.put(new GameSession(this))`. -/
def opened (srv : Server) : Server :=
  { srv.setSession srv.sessionCount Session.new with sessionCount := srv.sessionCount + 1 }

theorem Sound.opened {srv : Server} (sound : srv.Sound) (room : srv.sessionCount ≠ gameCount) :
    Same srv.room srv.opened := by
  have sessions : Function.update srv.sessions srv.sessionCount Session.new = srv.sessions := by
    rw [← sound.seats.unborn srv.sessionCount le_rfl, Function.update_eq_self]
  have few : srv.sessionCount + 1 ≤ gameCount := Nat.lt_of_le_of_ne sound.seats.few room
  obtain ⟨seat, member, unborn, _, unknown, queue, inGame⟩ := sound.seats
  obtain ⟨known, unique, owner⟩ := sound.handlers
  simp only [Server.opened, setSession, sessions]
  exact ⟨⟨⟨seat, member, fun t late => unborn t (Nat.le_of_succ_le late), few, unknown, queue,
    inGame⟩, ⟨known, unique, fun h inside => Nat.lt_succ_of_lt (owner h inside)⟩,
    sound.apart⟩, fun _ => rfl⟩

/-- A client who is in no session gets a free slot, or the server is full and
nothing changes. -/
theorem connect_alone {srv : Server} (sound : srv.Sound) {c : ClientId}
    (alone : srv.clients c = some ⟨none⟩) :
    ((∀ s < gameCount, (srv.sessions s).isVacant = false) ∧
        srv.connectPlayerToGame c = (false, srv)) ∨
      ∃ s srv', (srv.sessions s).isVacant = true ∧ srv.connectPlayerToGame c = (true, srv') ∧
        Shows srv.room s (((srv.room s).seat (srv.sessions s).freeIdx c
          (news (srv.toSendMsg c))).withSession ((srv.sessions s).taken c)) srv' := by
  have absent (t : SessionId) (j : PlayerIdx) := sound.absent alone t j
  -- Once a vacant session is found the rest cannot fail, as the arrays have room.
  have joins {srv₁ : Server} (same : Same srv.room srv₁) (alone₁ : srv₁.clients c = some ⟨none⟩)
      (inbox : srv₁.toSendMsg c = srv.toSendMsg c) (s : SessionId) (born : s < srv₁.sessionCount)
      (vacant : (srv.sessions s).isVacant = true) :
      ∃ srv', ((srv₁.setGameSession c s).getD srv₁).changeClientQueue c = (true, srv') ∧
        Shows srv.room s (((srv.room s).seat (srv.sessions s).freeIdx c
          (news (srv.toSendMsg c))).withSession ((srv.sessions s).taken c)) srv' := by
    have session : srv₁.sessions s = srv.sessions s := congrArg Room.session (same.rooms s)
    have free := Session.freeIdx_free vacant
    obtain ⟨slots, stored⟩ := same.sound.place born (session ▸ free) c
    refine ⟨srv₁.joined c s ((srv.sessions s).taken c) slots, ?_, ?_⟩
    · rw [setGameSession_alone alone₁ (by rw [session]; exact absent s)]
      simp [session, vacant, changeClientQueue, ClientArray.add_eq, setSession, stored, joined]
    · rw [← inbox]
      exact (same.shows born).joined alone₁ free rfl stored
  unfold connectPlayerToGame
  cases found : srv.findSession c with
  | some s =>
      have offers := List.find?_some found
      have born := List.mem_range.mp (List.mem_of_find?_eq_some found)
      rw [setGameSession_alone alone (absent s)] at offers
      have vacant : (srv.sessions s).isVacant = true := by
        by_contra taken
        simp [taken] at offers
      obtain ⟨srv', done, shows_⟩ := joins ⟨sound, fun _ => rfl⟩ alone rfl s born vacant
      exact Or.inr ⟨s, srv', vacant, done, shows_⟩
  | none =>
      by_cases full : srv.sessionCount = gameCount
      · refine Or.inl ⟨fun s open_ => ?_, by simp [full]⟩
        have refused := List.find?_eq_none.mp found s (List.mem_range.mpr (full ▸ open_))
        rw [setGameSession_alone alone (absent s)] at refused
        by_contra vacant
        simp [vacant] at refused
      have vacant : (srv.sessions srv.sessionCount).isVacant = true := by
        rw [sound.seats.unborn srv.sessionCount le_rfl]
        decide
      obtain ⟨srv', done, shows_⟩ := joins (sound.opened full) alone rfl _ (Nat.lt_succ_self _) vacant
      refine Or.inr ⟨_, srv', vacant, ?_, shows_⟩
      simp only [full, ↓reduceIte]
      exact done

end Server
end Battleship
