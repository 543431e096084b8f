import Battleship.Bombardment
import Battleship.Server

/-! What a player learns of the other's field. `get_for_enemy` hides the whole ship cells;
what it shows after a shot is determined by what it showed before, by the answer to the
shot and by whether a ship was sunk. -/
namespace Battleship

open Runs

namespace GameField

/-- The shot completes the sinking of a ship of the field. -/
def Sinks (f : GameField) (shots : List Point) (point : Point) : Prop :=
  ∃ fleet : Fleet, fleet.Fills f ∧ ∃ seg ∈ fleet.segments,
    ¬ Fleet.Sunk shots seg ∧ Fleet.Sunk (shots ++ [point]) seg

def SameView (f g : GameField) : Prop := f.getForEnemy = g.getForEnemy

theorem at'_getForEnemy (f : GameField) {point : Point} (inside : Inside point) :
    f.getForEnemy.at' point = if f.at' point = 1 then 0 else f.at' point := by
  obtain ⟨y, x, rfl⟩ := inside_iff.mp inside
  rw [at'_cell, at'_cell]
  rfl

theorem getForEnemy_hides (f : GameField) (y x : Fin fldSz) :
    f.getForEnemy.field y x ≠ CellState.unharmed.toCell := by
  simp only [getForEnemy]
  split_ifs with whole
  · decide
  · exact whole

section View

variable {f g f' g' : GameField}

theorem sameView_iff : SameView f g ↔ ∀ point, Inside point →
    (if f.at' point = 1 then 0 else f.at' point) = if g.at' point = 1 then 0 else g.at' point := by
  constructor
  · intro same point inside
    rw [← at'_getForEnemy f inside, ← at'_getForEnemy g inside, same]
  · intro same
    refine ext_at fun point inside => ?_
    rw [at'_getForEnemy f inside, at'_getForEnemy g inside, same point inside]

theorem SameView.at_iff (same : SameView f g) {point : Point} (inside : Inside point) {cell : Cell}
    (shown : cell = 2 ∨ cell = 3) : f.at' point = cell ↔ g.at' point = cell := by
  have seen (c : Cell) : (if c = 1 then 0 else c) = cell ↔ c = cell := by
    split_ifs with whole
    · subst whole
      rcases shown with rfl | rfl <;> decide
    · rfl
  rw [← seen (f.at' point), ← seen (g.at' point), sameView_iff.mp same point inside]

theorem SameView.put (same : SameView f g) {point : Point} (inside : Inside point) (cell : Cell) :
    SameView (f.put point cell) (g.put point cell) := by
  refine sameView_iff.mpr fun other within => ?_
  rw [at'_put f inside, at'_put g inside]
  by_cases here : other = point
  · simp only [here, ↓reduceIte]
  · simpa only [here, ↓reduceIte] using sameView_iff.mp same other within

theorem SameView.damaged (same : SameView f g) (point : Point) :
    f.getState point = .damaged ↔ g.getState point = .damaged := by
  rw [getState_damaged, getState_damaged]
  exact and_congr_right fun inside => same.at_iff inside (.inl rfl)

theorem SameView.damagedLine (same : SameView f g) (dir : Point) (fuel : Nat) (start : Point) :
    f.damagedLine dir fuel start = g.damagedLine dir fuel start := by
  simp only [GameField.damagedLine, same.damaged]

/-- Marking the same water keeps the views alike where no whole ship cell is near it. -/
theorem SameView.marks (same : SameView f g) {cells : Set Point} (marksF : Marks f f' cells)
    (marksG : Marks g g' cells)
    (water : ∀ point, Inside point → (∃ cell ∈ cells, Near cell point) →
      f.at' point ≠ 1 ∧ g.at' point ≠ 1) : SameView f' g' := by
  refine sameView_iff.mpr fun point inside => ?_
  have view := sameView_iff.mp same point inside
  by_cases near : ∃ cell ∈ cells, Near cell point
  · obtain ⟨notF, notG⟩ := water point inside near
    rw [if_neg notF, if_neg notG] at view
    have state : f.getState point = g.getState point := getState_congr view
    by_cases empty : f.getState point = .empty
    · rw [marksF.missed point inside empty near, marksG.missed point inside (state ▸ empty) near]
    · rw [marksF.kept point inside fun both => empty both.1,
        marksG.kept point inside fun both => empty (state.trans both.1), view]
  · rw [marksF.kept point inside fun both => near both.2,
      marksG.kept point inside fun both => near both.2, view]

end View
end GameField

namespace Fleet

variable {fleet fleetF fleetG : Fleet} {shots : List Point} {f g : GameField}

theorem Shows.whole_cell (shows_ : fleet.Shows shots g) {point : Point}
    (whole : g.getState point = .unharmed) :
    ∃ seg ∈ fleet.segments, point ∈ seg.cells ∧ point ∉ shots := by
  have inside := (GameField.getState_unharmed.mp whole).1
  rw [shows_.state inside] at whole
  unfold stateAfter at whole
  split_ifs at whole with holds shot
  obtain ⟨seg, member, inSeg⟩ := holds
  exact ⟨seg, member, inSeg, shot⟩

/-- The shot sinks a ship exactly if the test of `register_shot` says so. -/
theorem sinks_iff (fills : fleet.Fills f) {point : Point}
    (whole : (f.bombard shots).getState point = .unharmed) :
    f.Sinks shots point ↔ ((f.bombard shots).put point 2).shipDestroyed point = true := by
  constructor
  · rintro ⟨fleet', fills', seg, member, afloat, sunk⟩
    have inSeg : point ∈ seg.cells := by
      by_contra outside
      refine afloat fun cell inCell => ?_
      have other : cell ≠ point := by
        rintro rfl
        exact outside inCell
      simpa [other] using sunk cell inCell
    exact ((shows_bombard fills' shots).hit_destroyed_iff member inSeg).mpr sunk
  · intro destroyed
    have shows_ := shows_bombard fills shots
    obtain ⟨seg, member, inSeg, fresh⟩ := shows_.whole_cell whole
    exact ⟨fleet, fills, seg, member, fun sunk => fresh (sunk point inSeg),
      (shows_.hit_destroyed_iff member inSeg).mp destroyed⟩

theorem near_water {seg : Segment} (afloat : f.Afloat seg)
    (all : ∀ cell ∈ seg.cells, f.getState cell = .damaged) {point : Point} (inside : Inside point)
    (near : ∃ cell ∈ {cell | cell ∈ seg.cells}, Near cell point) : f.at' point ≠ 1 := by
  obtain ⟨cell, inCell, near⟩ := near
  intro whole
  have state := GameField.getState_unharmed.mpr ⟨inside, whole⟩
  by_cases inSeg : point ∈ seg.cells
  · rw [all point inSeg] at state
    cases state
  · rcases afloat.water cell inCell point near inSeg with empty | missed
    · rw [empty] at state
      cases state
    · rw [missed] at state
      cases state

theorem sameView_sunk (same : GameField.SameView f g) (showsF : fleetF.Shows shots f)
    (showsG : fleetG.Shows shots g) {point : Point} (wholeF : f.getState point = .unharmed)
    (wholeG : g.getState point = .unharmed)
    (destroyedF : (f.put point 2).shipDestroyed point = true)
    (destroyedG : (g.put point 2).shipDestroyed point = true) :
    GameField.SameView ((f.put point 2).markDestroyedShipBoundary point)
      ((g.put point 2).markDestroyedShipBoundary point) := by
  have inside := (GameField.getState_unharmed.mp wholeF).1
  obtain ⟨segF, memberF, inF, _⟩ := showsF.whole_cell wholeF
  obtain ⟨segG, memberG, inG, _⟩ := showsG.whole_cell wholeG
  have afloatF := afloat_hit (showsF.afloat memberF) inside inF
  have afloatG := afloat_hit (showsG.afloat memberG) inside inG
  have allF := (showsF.hit_sunk_iff memberF inF).mpr
    ((showsF.hit_destroyed_iff memberF inF).mp destroyedF)
  have allG := (showsG.hit_sunk_iff memberG inG).mpr
    ((showsG.hit_destroyed_iff memberG inG).mp destroyedG)
  have hit := same.put inside 2
  -- Both ships are what the four lines of damaged cells from the hit show.
  have cells : {cell | cell ∈ segF.cells} = {cell | cell ∈ segG.cells} := by
    rw [← GameField.lines_cover (fleetF.sized memberF) afloatF allF inF,
      ← GameField.lines_cover (fleetG.sized memberG) afloatG allG inG]
    simp only [hit.damagedLine]
  have marksF := GameField.markDestroyedShipBoundary_marks (fleetF.sized memberF) afloatF allF inF
  have marksG := GameField.markDestroyedShipBoundary_marks (fleetG.sized memberG) afloatG allG inG
  rw [← cells] at marksG
  refine hit.marks marksF marksG fun other within near => ⟨?_, ?_⟩
  · exact near_water afloatF allF within near
  · exact near_water afloatG allG within (cells ▸ near)

theorem sameView_shot (same : GameField.SameView f g) (showsF : fleetF.Shows shots f)
    (showsG : fleetG.Shows shots g) {point : Point}
    (answer : (f.registerShot point).1 = (g.registerShot point).1)
    (sinking : f.getState point = .unharmed → g.getState point = .unharmed →
      ((f.put point 2).shipDestroyed point = true ↔ (g.put point 2).shipDestroyed point = true)) :
    GameField.SameView (f.registerShot point).2 (g.registerShot point).2 := by
  by_cases untriedF : f.Untried point
  · have untriedG : g.Untried point := by
      rw [← GameField.registerShot_result, ← answer]
      exact (GameField.registerShot_result f point).mpr untriedF
    have inside := untriedF.1
    rcases untriedF.2 with waterF | wholeF
    · rcases untriedG.2 with waterG | wholeG
      · rw [GameField.registerShot_missed f point inside waterF,
          GameField.registerShot_missed g point inside waterG]
        exact same.put inside 3
      · rw [GameField.registerShot_missed f point inside waterF,
          GameField.registerShot_unharmed wholeG] at answer
        cases answer
    · rcases untriedG.2 with waterG | wholeG
      · rw [GameField.registerShot_unharmed wholeF,
          GameField.registerShot_missed g point inside waterG] at answer
        cases answer
      · rw [GameField.registerShot_unharmed wholeF, GameField.registerShot_unharmed wholeG]
        have sinking := sinking wholeF wholeG
        by_cases destroyed : (f.put point 2).shipDestroyed point = true
        · rw [if_pos destroyed, if_pos (sinking.mp destroyed)]
          exact sameView_sunk same showsF showsG wholeF wholeG destroyed (sinking.mp destroyed)
        · rw [if_neg destroyed, if_neg (sinking.not.mp destroyed)]
          exact same.put inside 2
  · have untriedG : ¬ g.Untried point := by
      rw [← GameField.registerShot_result, ← answer]
      exact fun tried => untriedF ((GameField.registerShot_result f point).mp tried)
    rw [GameField.registerShot_refused f point untriedF,
      GameField.registerShot_refused g point untriedG]
    exact same

theorem sameView_bombard (fillsF : fleetF.Fills f) (fillsG : fleetG.Fills g) {shots : List Point}
    (alike : ∀ before point, before ++ [point] <+: shots →
      ((f.bombard before).registerShot point).1 = ((g.bombard before).registerShot point).1 ∧
        (f.Sinks before point ↔ g.Sinks before point)) :
    GameField.SameView (f.bombard shots) (g.bombard shots) := by
  induction shots using List.reverseRecOn with
  | nil =>
      refine GameField.sameView_iff.mpr fun point inside => ?_
      obtain ⟨y, x, rfl⟩ := GameField.inside_iff.mp inside
      rw [GameField.at'_cell, GameField.at'_cell]
      rcases fillsF.values y x with emptyF | wholeF <;>
        rcases fillsG.values y x with emptyG | wholeG <;>
        simp_all [GameField.bombard, CellState.toCell]
  | append_singleton shots point ih =>
      have same := ih fun before shot early => alike before shot (early.trans (List.prefix_append _ _))
      obtain ⟨answer, sinking⟩ := alike shots point List.prefix_rfl
      rw [GameField.bombard_snoc, GameField.bombard_snoc]
      refine sameView_shot same (shows_bombard fillsF shots) (shows_bombard fillsG shots) answer
        fun wholeF wholeG => ?_
      rw [← sinks_iff fillsF wholeF, ← sinks_iff fillsG wholeG]
      exact sinking

end Fleet

/-- The field of a message about the other player's field. -/
def Body.enemyField : Body → Option GameField
  | .gameField field false => some field
  | _ => none

def Body.isOwn : Body → Bool
  | .gameField _ own => own
  | _ => false

theorem Body.enemyField_own {body : Body} (own : body.isOwn = true) : body.enemyField = none := by
  cases body with
  | gameField field isOwnField =>
      obtain rfl : isOwnField = true := own
      rfl
  | _ => rfl

namespace Server

/-- The fields of others queued for the client. -/
def enemyFields (srv : Server) (c : ClientId) : List GameField :=
  (srv.toSendMsg c).filterMap fun msg => msg.body.enemyField

def withField (srv : Server) (s : SessionId) (i : PlayerIdx) (field : GameField) : Server :=
  srv.setSession s { srv.sessions s with
    fields := Function.update (srv.sessions s).fields i field }

/-- The server with every field as the enemy sees it, and without the queued fields that
go to their owners. -/
def asSeen (srv : Server) : Server :=
  { srv with
    sessions := fun s => { srv.sessions s with
      fields := fun i => ((srv.sessions s).fields i).getForEnemy }
    toSendMsg := fun c => (srv.toSendMsg c).filter fun msg => !msg.body.isOwn }

theorem enemyFields_asSeen (srv : Server) : srv.asSeen.enemyFields = srv.enemyFields := by
  funext c
  simp only [enemyFields, asSeen, List.filterMap_filter]
  refine List.filterMap_congr fun msg _ => ?_
  by_cases own : msg.body.isOwn = true
  · simp [own, Body.enemyField_own own]
  · simp [own]

theorem asSeen_withField (srv : Server) (s : SessionId) (i : PlayerIdx) {h h' : GameField}
    (same : GameField.SameView h h') :
    (srv.withField s i h).asSeen = (srv.withField s i h').asSeen := by
  unfold asSeen withField setSession
  congr 1
  funext s'
  by_cases here : s' = s
  · subst here
    simp only [Function.update_self]
    congr 1
    funext i'
    by_cases slot : i' = i
    · subst slot
      rw [Function.update_self, Function.update_self]
      exact same
    · simp only [Function.update_of_ne slot]
  · simp only [Function.update_of_ne here]

theorem sendMsg_asSeen (srv : Server) (c : ClientId) {msg : Message}
    (shown : msg.body.isOwn = false) :
    (srv.sendMsg c msg).map asSeen = srv.asSeen.sendMsg c msg := by
  unfold sendMsg
  have alive : srv.asSeen.clients c = srv.clients c := rfl
  rw [alive]
  cases srv.clients c with
  | none => rfl
  | some client =>
      refine congrArg Except.ok ?_
      unfold asSeen
      congr 1
      funext c'
      by_cases here : c' = c
      · subst here
        simp [shown]
      · simp [Function.update_of_ne here]

/-- Of a player's own field it is seen at most that its receiver is gone. -/
theorem sendMsg_own (srv : Server) (c : ClientId) {msg : Message} (own : msg.body.isOwn = true) :
    (srv.sendMsg c msg).map asSeen =
      if (srv.asSeen.clients c).isNone then .error .deadClient else .ok srv.asSeen := by
  unfold sendMsg
  have alive : srv.asSeen.clients c = srv.clients c := rfl
  rw [alive]
  cases srv.clients c with
  | none => rfl
  | some client =>
      refine congrArg Except.ok ?_
      unfold asSeen
      congr 1
      funext c'
      by_cases here : c' = c
      · subst here
        simp [own]
      · simp [Function.update_of_ne here]

section Sight

variable {srv srv' : Server} (s : SessionId)

theorem players_of_asSeen (same : srv.asSeen = srv'.asSeen) (i : PlayerIdx) :
    (srv.sessions s).players i = (srv'.sessions s).players i := by
  have seen := congrArg (fun seen : Server => (seen.sessions s).players i) same
  exact seen

theorem turn_of_asSeen (same : srv.asSeen = srv'.asSeen) :
    (srv.sessions s).curTurnPlayerIdx = (srv'.sessions s).curTurnPlayerIdx := by
  have seen := congrArg (fun seen : Server => (seen.sessions s).curTurnPlayerIdx) same
  exact seen

theorem view_of_asSeen (same : srv.asSeen = srv'.asSeen) (i : PlayerIdx) :
    ((srv.sessions s).fields i).getForEnemy = ((srv'.sessions s).fields i).getForEnemy := by
  have seen := congrArg (fun seen : Server => (seen.sessions s).fields i) same
  exact seen

theorem sendToPlayer_asSeen (same : srv.asSeen = srv'.asSeen) (i : PlayerIdx) {body : Body}
    (shown : body.isOwn = false) :
    (srv.sendToPlayer s i body).map asSeen = (srv'.sendToPlayer s i body).map asSeen := by
  unfold sendToPlayer
  rw [players_of_asSeen s same i]
  cases (srv'.sessions s).players i with
  | none => rfl
  | some player =>
      have shown' : (Message.new body).body.isOwn = false := by rwa [Message.new_body]
      dsimp only
      rw [sendMsg_asSeen srv player shown', sendMsg_asSeen srv' player shown', same]

theorem sendToPlayer_own (same : srv.asSeen = srv'.asSeen) (i : PlayerIdx) (h h' : GameField) :
    (srv.sendToPlayer s i (.gameField h true)).map asSeen =
      (srv'.sendToPlayer s i (.gameField h' true)).map asSeen := by
  unfold sendToPlayer
  rw [players_of_asSeen s same i]
  cases (srv'.sessions s).players i with
  | none => rfl
  | some player =>
      dsimp only
      rw [sendMsg_own srv player rfl, sendMsg_own srv' player rfl, same]

theorem sendStartFieldsTo_asSeen (same : srv.asSeen = srv'.asSeen) (i : PlayerIdx) :
    (srv.sendStartFieldsTo s i).map asSeen = (srv'.sendStartFieldsTo s i).map asSeen := by
  unfold sendStartFieldsTo
  dsimp only
  rw [view_of_asSeen s same (getEnemyIdx i)]
  apply map_bind_congr
  · exact sendToPlayer_own s same i _ _
  · exact fun srv₁ srv₂ same₁ => sendToPlayer_asSeen s same₁ i rfl

theorem sendStartFields_asSeen (same : srv.asSeen = srv'.asSeen) :
    (srv.sendStartFields s).map asSeen = (srv'.sendStartFields s).map asSeen := by
  have state : (srv.sessions s).state = (srv'.sessions s).state := by
    have seen := congrArg (fun seen : Server => (seen.sessions s).state) same
    exact seen
  unfold sendStartFields
  rw [state]
  split
  · exact congrArg Except.ok same
  · apply map_bind_congr
    · exact sendStartFieldsTo_asSeen s same 0
    · exact fun srv₁ srv₂ same₁ => sendStartFieldsTo_asSeen s same₁ 1

theorem sendFields_asSeen (same : srv.asSeen = srv'.asSeen) :
    (srv.sendFields s).map asSeen = (srv'.sendFields s).map asSeen := by
  have turn := turn_of_asSeen s same
  have enemy : (srv.sessions s).enemyIdx = (srv'.sessions s).enemyIdx := congrArg getEnemyIdx turn
  unfold sendFields
  dsimp only
  rw [turn, enemy, view_of_asSeen s same _]
  apply map_bind_congr
  · exact sendToPlayer_asSeen s same _ rfl
  · intro srv₁ srv₂ same₁
    have enemy₁ : (srv₁.sessions s).enemyIdx = (srv₂.sessions s).enemyIdx :=
      congrArg getEnemyIdx (turn_of_asSeen s same₁)
    rw [enemy₁]
    exact sendToPlayer_own s same₁ _ _ _

end Sight

/-- What is seen determines the fields that were sent as the enemy's. -/
theorem map_enemyFields {x y : Except Fault Server} (same : x.map asSeen = y.map asSeen) :
    x.map enemyFields = y.map enemyFields := by
  have seen (z : Except Fault Server) : z.map enemyFields = (z.map asSeen).map enemyFields := by
    cases z with
    | error fault => rfl
    | ok srv => exact congrArg Except.ok (enemyFields_asSeen srv).symm
  rw [seen x, seen y, same]

end Server

namespace GameField

/-- Where two start fields give the same answers to the shots, and a ship sinks in one
exactly when one sinks in the other, the enemy sees the same of both, at every time. -/
theorem enemy_view_leaks_only_results {f g : GameField} {past past' : Nat → Nat → Cell}
    (validF : f.isValidStartFieldWith past = true) (validG : g.isValidStartFieldWith past' = true)
    {shots : List Point}
    (alike : ∀ before point, before ++ [point] <+: shots →
      ((f.bombard before).registerShot point).1 = ((g.bombard before).registerShot point).1 ∧
        (f.Sinks before point ↔ g.Sinks before point)) :
    ∀ before, before <+: shots →
      (∀ y x, (f.bombard before).getForEnemy.field y x = (g.bombard before).getForEnemy.field y x ∧
        (f.bombard before).getForEnemy.field y x ≠ CellState.unharmed.toCell) ∧
      ∀ (srv : Server) (s : SessionId) (i : PlayerIdx),
        ((srv.withField s i (f.bombard before)).sendStartFields s).map Server.enemyFields =
            ((srv.withField s i (g.bombard before)).sendStartFields s).map Server.enemyFields ∧
          ((srv.withField s i (f.bombard before)).sendFields s).map Server.enemyFields =
            ((srv.withField s i (g.bombard before)).sendFields s).map Server.enemyFields := by
  intro before early
  obtain ⟨_, fillsF⟩ := fleet_of_valid past validF
  obtain ⟨_, fillsG⟩ := fleet_of_valid past' validG
  have same : SameView (f.bombard before) (g.bombard before) :=
    Fleet.sameView_bombard fillsF fillsG fun before' point here =>
      alike before' point (here.trans early)
  refine ⟨fun y x => ⟨?_, getForEnemy_hides _ y x⟩, fun srv s i => ?_⟩
  · exact congrArg (fun field : GameField => field.field y x) same
  · have seen := Server.asSeen_withField srv s i same
    constructor
    · exact Server.map_enemyFields (Server.sendStartFields_asSeen s seen)
    · exact Server.map_enemyFields (Server.sendFields_asSeen s seen)

end GameField

/-- The ships of the opening field turned from the rows to the columns. -/
def uprightField : GameField where
  field y x := openingField.field x y

namespace GameField

/-- After a first shot that hits the corner ship of both fields. -/
theorem enemy_view_leaks_only_results_corner :
    (∀ y x, (openingField.bombard [⟨0, 0⟩]).getForEnemy.field y x =
        (uprightField.bombard [⟨0, 0⟩]).getForEnemy.field y x ∧
      (openingField.bombard [⟨0, 0⟩]).getForEnemy.field y x ≠ CellState.unharmed.toCell) ∧
    ∀ (srv : Server) (s : SessionId) (i : PlayerIdx),
      ((srv.withField s i (openingField.bombard [⟨0, 0⟩])).sendStartFields s).map
            Server.enemyFields =
          ((srv.withField s i (uprightField.bombard [⟨0, 0⟩])).sendStartFields s).map
            Server.enemyFields ∧
        ((srv.withField s i (openingField.bombard [⟨0, 0⟩])).sendFields s).map
            Server.enemyFields =
          ((srv.withField s i (uprightField.bombard [⟨0, 0⟩])).sendFields s).map
            Server.enemyFields := by
  have validF : openingField.isValidStartFieldWith (fun _ _ => 0) = true := by decide +kernel
  have validG : uprightField.isValidStartFieldWith (fun _ _ => 0) = true := by decide +kernel
  obtain ⟨_, fillsF⟩ := fleet_of_valid _ validF
  obtain ⟨_, fillsG⟩ := fleet_of_valid _ validG
  have wholeF : (openingField.bombard []).getState ⟨0, 0⟩ = .unharmed := by decide +kernel
  have wholeG : (uprightField.bombard []).getState ⟨0, 0⟩ = .unharmed := by decide +kernel
  have alike : ∀ before point, before ++ [point] <+: [⟨0, 0⟩] →
      ((openingField.bombard before).registerShot point).1 =
          ((uprightField.bombard before).registerShot point).1 ∧
        (openingField.Sinks before point ↔ uprightField.Sinks before point) := by
    intro before point first
    have short : (before ++ [point]).length ≤ 1 := first.length_le
    obtain rfl : before = [] := by simpa using short
    obtain rfl : point = ⟨0, 0⟩ := by simpa using first
    refine ⟨by decide +kernel, ?_⟩
    rw [Fleet.sinks_iff fillsF wholeF, Fleet.sinks_iff fillsG wholeG]
    decide +kernel
  exact enemy_view_leaks_only_results validF validG alike [⟨0, 0⟩] List.prefix_rfl

end GameField
end Battleship
