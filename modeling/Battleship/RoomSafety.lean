import Battleship.Room

/-! What holds of a room whatever happens to it: the slots agree with the state,
and every phase that only a countdown can end has that countdown running. -/
namespace Battleship

namespace Session

theorem full_iff {session : Session} : session.Full ↔ session.getPlayersCount = 2 := by
  simp only [Full, Fin.forall_fin_two, getPlayersCount, ← Option.isSome_iff_exists]
  cases (session.players 0).isSome <;> cases (session.players 1).isSome <;> simp

theorem count_zero_iff {session : Session} :
    session.getPlayersCount = 0 ↔ ∀ i, session.players i = none := by
  simp only [Fin.forall_fin_two, getPlayersCount, ← Option.not_isSome_iff_eq_none]
  cases (session.players 0).isSome <;> cases (session.players 1).isSome <;> simp

theorem count_le_two (session : Session) : session.getPlayersCount ≤ 2 := by
  unfold getPlayersCount
  split_ifs <;> omega

theorem count_update_none {session : Session} {i : PlayerIdx} {c : ClientId} (state : GameState)
    (seated : session.players i = some c) :
    getPlayersCount { session with
      players := Function.update session.players i none, state := state } + 1 =
      session.getPlayersCount := by
  fin_cases i <;> (simp_all [getPlayersCount]; try omega)

theorem count_update_some {session : Session} {i : PlayerIdx} {c : ClientId} (state : GameState)
    (free : session.players i = none) :
    getPlayersCount { session with
      players := Function.update session.players i (some c), state := state } =
      session.getPlayersCount + 1 := by
  fin_cases i <;> (simp_all [getPlayersCount]; try omega)

theorem count_freeSlot {session : Session} {i : PlayerIdx} {c : ClientId}
    (seated : session.players i = some c) :
    (session.freeSlot i).getPlayersCount + 1 = session.getPlayersCount :=
  count_update_none _ seated

theorem agrees_iff {session : Session} : session.Agrees ↔
    (session.state = .noVacantGame ∧ session.getPlayersCount = 0) ∨
      (session.state = .waitPlayer ∧ session.getPlayersCount = 1) ∨
      (session.state ≠ .noVacantGame ∧ session.state ≠ .waitPlayer ∧
        session.getPlayersCount = 2) := by
  have bound := session.count_le_two
  unfold Agrees
  cases session.state <;> simp <;> omega

theorem Agrees.freeSlot {session : Session} (agrees : session.Agrees) {i : PlayerIdx}
    {c : ClientId} (seated : session.players i = some c) : (session.freeSlot i).Agrees := by
  have fewer := count_freeSlot seated
  rw [agrees_iff] at agrees ⊢
  rcases agrees with ⟨_, none⟩ | ⟨waiting, one⟩ | ⟨_, busy, two⟩
  · omega
  · refine Or.inl ⟨by simp [Session.freeSlot, waiting], by omega⟩
  · exact Or.inr (Or.inl ⟨by simp [Session.freeSlot, busy], by omega⟩)

theorem Agrees.evict {session : Session} (agrees : session.Agrees) (i : PlayerIdx) :
    (session.evict i).Agrees := by
  unfold Session.evict
  split_ifs with invalid
  · obtain ⟨c, seated⟩ := Option.isSome_iff_exists.mp invalid.1
    exact agrees.freeSlot seated
  · exact agrees

theorem Agrees.full {session : Session} (agrees : session.Agrees)
    (open_ : session.state ≠ .noVacantGame) (started : session.state ≠ .waitPlayer) :
    session.Full :=
  full_iff.mpr (agrees.2.2.mpr ⟨open_, started⟩)

theorem Agrees.of_full {session : Session} (full : session.Full)
    (open_ : session.state ≠ .noVacantGame) (started : session.state ≠ .waitPlayer) :
    session.Agrees :=
  agrees_iff.mpr (Or.inr (Or.inr ⟨open_, started, full_iff.mp full⟩))

theorem registerShot_frame {session session' : Session} {draws : List Nat} {shotRes : CellState}
    (shot : session.registerShot draws = some (shotRes, session')) :
    ∃ fields, session' = { session with fields := fields, lastShot := noShot } := by
  unfold registerShot at shot
  split at shot
  · cases shot
  · split at shot
    · cases shot
    · cases shot
      exact ⟨_, rfl⟩

def Apart (session : Session) : Prop :=
  ∀ c, session.players 0 = some c → session.players 1 ≠ some c

theorem freeSlot_apart (session : Session) (i : PlayerIdx) : (session.freeSlot i).Apart := by
  intro c first second
  fin_cases i <;> simp [Session.freeSlot] at first second

theorem Apart.evict {session : Session} (apart : session.Apart) (i : PlayerIdx) :
    (session.evict i).Apart := by
  unfold Session.evict
  split_ifs
  · exact freeSlot_apart session i
  · exact apart

@[simp] theorem nextTurn_players (session : Session) (shotRes : CellState) :
    (session.nextTurn shotRes).players = session.players := by
  unfold nextTurn
  split_ifs <;> rfl

@[simp] theorem nextTurn_fields (session : Session) (shotRes : CellState) :
    (session.nextTurn shotRes).fields = session.fields := by
  unfold nextTurn
  split_ifs <;> rfl

@[simp] theorem nextTurn_lastShot (session : Session) (shotRes : CellState) :
    (session.nextTurn shotRes).lastShot = session.lastShot := by
  unfold nextTurn
  split_ifs <;> rfl

end Session

namespace Room

theorem Step.move_lastShot {point : Point} {room room' : Room}
    (step : Step (.move point) room room') : room'.session.lastShot = point := by
  cases step <;> rfl

/-- A countdown is registered once. -/
def Once (room : Room) : Prop :=
  ∀ h kind kind', (h, kind) ∈ room.pending → (h, kind') ∈ room.pending → kind = kind'

theorem Once.without {room : Room} (once : room.Once) (h : HandlerId) :
    (room.without h).Once :=
  fun id kind kind' left right => once id kind kind' left.1 right.1

theorem Fresh.without {room : Room} {h' : HandlerId} (fresh : room.Fresh h') (h : HandlerId) :
    (room.without h).Fresh h' :=
  fun kind member => fresh kind member.1

theorem Once.arm {room : Room} (once : room.Once) {h : HandlerId} (fresh : room.Fresh h)
    (kind : TimeoutKind) : (room.arm h kind).Once := by
  intro id left right
  rintro (new | old) (new' | old')
  · exact (Prod.mk.inj new).2.trans (Prod.mk.inj new').2.symm
  · exact absurd ((Prod.mk.inj new).1 ▸ old') (fresh right)
  · exact absurd ((Prod.mk.inj new').1 ▸ old) (fresh left)
  · exact once id left right old old'

def Running (room : Room) : Prop :=
  room.session.Timed → ∃ h kind, (h, kind) ∈ room.pending ∧ room.session.EndedBy kind ∧
    (room.session.state = .gameTurn → room.session.turnTimeout = some h)

structure Good (room : Room) : Prop where
  agrees : room.session.Agrees
  apart : room.session.Apart
  ready : room.session.state ≠ .waitPreparation
  once : room.Once
  running : room.Running

theorem Step.once {action : Action} {room room' : Room} (step : Step action room room')
    (once : room.Once) : room'.Once := by
  cases step with
  | idle | leave | ask | submit | lateMove | joinFirst => exact once
  | joinSecond free host other waiting fresh => exact once.arm fresh _
  | move turn clear running fresh => exact (once.without _).arm (fresh.without _) _
  | expire late => exact once.without _
  | stopPreparation pending state fresh => exact (once.without _).arm fresh _
  | fieldsAccepted pending full valid fresh => exact (once.without _).arm fresh _
  | oneLeft | noneLeft | endGame => exact once.without _
  | startGame pending state fresh => exact (once.without _).arm fresh _
  | endTurn pending state running fresh =>
      exact ((once.without _).without _).arm (fresh.without _) _
  | gameOver pending state shot finished fresh => exact (once.without _).arm fresh _
  | changeTurn pending state shot ongoing fresh => exact (once.without _).arm fresh _

theorem Step.agrees {action : Action} {room room' : Room} (step : Step action room room')
    (agrees : room.session.Agrees) : room'.session.Agrees := by
  have playing (open_ : room.session.state ≠ .noVacantGame)
      (started : room.session.state ≠ .waitPlayer) := agrees.full open_ started
  cases step with
  | idle | ask | submit | lateMove | expire | fieldsAccepted => exact agrees
  | leave seated => exact agrees.freeSlot seated
  | joinFirst vacant closed =>
      refine Session.agrees_iff.mpr (Or.inr (Or.inl ⟨rfl, ?_⟩))
      exact (Session.count_update_some _ (vacant 0)).trans
        (congrArg (· + 1) (Session.count_zero_iff.mpr vacant))
  | joinSecond free host other waiting fresh =>
      refine Session.agrees_iff.mpr (Or.inr (Or.inr ⟨nofun, nofun, ?_⟩))
      exact (Session.count_update_some _ free).trans
        (congrArg (· + 1) (agrees.2.1.mpr waiting))
  | move turn | endTurn pending turn =>
      exact Session.Agrees.of_full (playing (by simp [turn]) (by simp [turn])) nofun nofun
  | stopPreparation pending state | startGame pending state =>
      exact Session.Agrees.of_full (playing (by simp [state]) (by simp [state])) nofun nofun
  | oneLeft pending left => exact Session.agrees_iff.mpr (Or.inr (Or.inl ⟨rfl, left⟩))
  | noneLeft => exact (agrees.evict 0).evict 1
  | endGame => exact Session.agrees_iff.mpr (Or.inl ⟨rfl, rfl⟩)
  | gameOver pending state shot =>
      obtain ⟨fields, rfl⟩ := Session.registerShot_frame shot
      exact agrees
  | changeTurn pending state shot =>
      have full := playing (by simp [state]) (by simp [state])
      obtain ⟨fields, rfl⟩ := Session.registerShot_frame shot
      refine Session.Agrees.of_full (fun i => ?_) nofun nofun
      simpa using full i

theorem Step.apart {action : Action} {room room' : Room} (step : Step action room room')
    (apart : room.session.Apart) : room'.session.Apart := by
  cases step with
  | idle | ask | submit | lateMove | expire | fieldsAccepted | stopPreparation | startGame | move
  | endTurn => exact apart
  | leave => exact Session.freeSlot_apart _ _
  | joinFirst vacant =>
      intro c _ second
      simp [vacant] at second
  | @joinSecond _ i b c h earlier free host other =>
      intro d first second
      fin_cases i <;> simp_all [getEnemyIdx]
  | oneLeft | noneLeft => exact (apart.evict 0).evict 1
  | endGame => exact nofun
  | gameOver pending state shot =>
      obtain ⟨fields, rfl⟩ := Session.registerShot_frame shot
      exact apart
  | changeTurn pending state shot =>
      obtain ⟨fields, rfl⟩ := Session.registerShot_frame shot
      simpa [Session.Apart] using apart

theorem Step.ready {action : Action} {room room' : Room} (step : Step action room room')
    (agrees : room.session.Agrees) (ready : room.session.state ≠ .waitPreparation) :
    room'.session.state ≠ .waitPreparation := by
  cases step with
  | idle | ask | submit | lateMove | expire | fieldsAccepted => exact ready
  | leave =>
      simp only [leave_session, Session.freeSlot]
      split_ifs <;> nofun
  | joinFirst | joinSecond | stopPreparation | startGame | move | endTurn | oneLeft | endGame
  | changeTurn => exact nofun
  | noneLeft pending left =>
      have closed : room.session.evictInvalid.state = .noVacantGame :=
        ((agrees.evict 0).evict 1).1.mp left
      exact fun ready => nomatch closed.symm.trans ready
  | gameOver pending state shot =>
      obtain ⟨fields, rfl⟩ := Session.registerShot_frame shot
      exact ready

theorem Running.without {room : Room} (running : room.Running) {h : HandlerId}
    (other : ∀ kind, (h, kind) ∈ room.pending → ¬ room.session.EndedBy kind) :
    (room.without h).Running := by
  intro timed
  obtain ⟨id, kind, member, ends, turn⟩ := running timed
  refine ⟨id, kind, ⟨member, ?_⟩, ends, turn⟩
  rintro rfl
  exact other kind member ends

/-- A countdown that ends the present phase is one the session acts on. -/
theorem Good.expects {room : Room} (good : room.Good) {kind : TimeoutKind}
    (ends : room.session.EndedBy kind) : room.session.Expects kind := by
  have seated (state : GameState) (here : room.session.state = state)
      (open_ : state ≠ .noVacantGame) (started : state ≠ .waitPlayer) :
      ∃ i c, room.session.players i = some c :=
    ⟨0, good.agrees.full (here ▸ open_) (here ▸ started) 0⟩
  cases kind with
  | preparation | gameStart | gameTurn | changeTurn => exact ends
  | checkStartFields => exact seated _ ends nofun nofun
  | endGame => exact seated _ ends nofun nofun

theorem not_timed {session : Session}
    (waiting : session.state = .noVacantGame ∨ session.state = .waitPlayer) :
    ¬ session.Timed := by
  rintro ⟨kind, ends⟩
  cases kind <;> rcases waiting with closed | open_ <;>
    simp_all [Session.EndedBy]

theorem Step.running {action : Action} {room room' : Room} (step : Step action room room')
    (good : room.Good) : room'.Running := by
  cases step with
  | idle | ask | submit | lateMove => exact good.running
  | leave =>
      refine fun timed => absurd timed (not_timed ?_)
      simp only [leave_session, Session.freeSlot]
      split_ifs <;> simp
  | joinFirst | oneLeft | endGame => exact fun timed => absurd timed (not_timed (by simp))
  | noneLeft pending left =>
      have closed := ((good.agrees.evict 0).evict 1).1.mp left
      exact fun timed => absurd timed (not_timed (Or.inl closed))
  | joinSecond => exact fun _ => ⟨_, .preparation, Or.inl rfl, rfl, nofun⟩
  | move | endTurn => exact fun _ => ⟨_, .changeTurn, Or.inl rfl, rfl, nofun⟩
  | stopPreparation => exact fun _ => ⟨_, .checkStartFields, Or.inl rfl, rfl, nofun⟩
  | startGame | changeTurn => exact fun _ => ⟨_, .gameTurn, Or.inl rfl, rfl, fun _ => rfl⟩
  | gameOver pending state shot =>
      obtain ⟨fields, rfl⟩ := Session.registerShot_frame shot
      exact fun _ => ⟨_, .endGame, Or.inl rfl, state, by simp [state]⟩
  | expire pending late =>
      refine good.running.without fun kind member ends => late ?_
      exact good.once _ _ _ member pending ▸ good.expects ends
  | fieldsAccepted pending full valid fresh =>
      by_cases check : room.session.state = .waitStart
      · exact fun _ => ⟨_, .gameStart, Or.inl rfl, check, by simp [check]⟩
      · have running := good.running.without fun kind member ends =>
          check (good.once _ _ _ pending member ▸ ends :)
        intro timed
        obtain ⟨id, kind, member, ends, turn⟩ := running timed
        exact ⟨id, kind, Or.inr member, ends, turn⟩

theorem Step.good {action : Action} {room room' : Room} (step : Step action room room')
    (good : room.Good) : room'.Good where
  agrees := step.agrees good.agrees
  apart := step.apart good.apart
  ready := step.ready good.agrees good.ready
  once := step.once good.once
  running := step.running good

end Room
end Battleship
