import Battleship.Boundary

/-! A field under fire. What its cells show after any shots is a function of the points
shot alone: a ship cell that was shot is damaged, and water is marked where it was shot
and around each ship all of whose cells were. -/
namespace Battleship

namespace GameField

/-- The field after the shots. -/
def bombard (f : GameField) (shots : List Point) : GameField :=
  shots.foldl (fun f point => (f.registerShot point).2) f

def answers (f : GameField) : List Point → List CellState
  | [] => []
  | point :: shots => (f.registerShot point).1 :: answers (f.registerShot point).2 shots

@[simp] theorem bombard_snoc (f : GameField) (shots : List Point) (point : Point) :
    f.bombard (shots ++ [point]) = ((f.bombard shots).registerShot point).2 := by
  simp [bombard]

theorem answers_snoc (f : GameField) (shots : List Point) (point : Point) :
    f.answers (shots ++ [point]) = f.answers shots ++ [((f.bombard shots).registerShot point).1] := by
  induction shots generalizing f with
  | nil => rfl
  | cons shot shots ih =>
      rw [List.cons_append, answers, ih]
      rfl

theorem getState_put_other (f : GameField) {point : Point} (inside : Inside point) {other : Point}
    (differs : other ≠ point) (cell : Cell) : (f.put point cell).getState other = f.getState other :=
  getState_congr (by rw [at'_put f inside, if_neg differs])

theorem getState_hit (f : GameField) {point : Point} (inside : Inside point) :
    (f.put point 2).getState point = .damaged :=
  getState_damaged.mpr ⟨inside, by rw [at'_put f inside, if_pos rfl]⟩

end GameField

namespace Fleet

def Sunk (shots : List Point) (seg : Segment) : Prop := ∀ cell ∈ seg.cells, cell ∈ shots

instance (shots : List Point) (seg : Segment) : Decidable (Sunk shots seg) :=
  inferInstanceAs (Decidable (∀ cell ∈ seg.cells, cell ∈ shots))

/-- The point belongs to a ship. -/
def Holds (fleet : Fleet) (point : Point) : Prop := ∃ seg ∈ fleet.segments, point ∈ seg.cells

instance (fleet : Fleet) (point : Point) : Decidable (fleet.Holds point) :=
  inferInstanceAs (Decidable (∃ seg ∈ fleet.segments, point ∈ seg.cells))

def Beside (fleet : Fleet) (shots : List Point) (point : Point) : Prop :=
  ∃ seg ∈ fleet.segments, Sunk shots seg ∧ ∃ cell ∈ seg.cells, Near cell point

instance (fleet : Fleet) (shots : List Point) (point : Point) :
    Decidable (fleet.Beside shots point) :=
  inferInstanceAs (Decidable (∃ seg ∈ fleet.segments, Sunk shots seg ∧ _))

def stateAfter (fleet : Fleet) (shots : List Point) (point : Point) : CellState :=
  if fleet.Holds point then if point ∈ shots then .damaged else .unharmed
  else if point ∈ shots ∨ fleet.Beside shots point then .missed
  else .empty

def Shows (fleet : Fleet) (shots : List Point) (g : GameField) : Prop :=
  ∀ point, Inside point → g.at' point = (fleet.stateAfter shots point).toCell

variable {fleet : Fleet} {shots : List Point} {g : GameField}

theorem holds_inside {point : Point} (holds : fleet.Holds point) : Inside point := by
  obtain ⟨seg, member, inSeg⟩ := holds
  exact fleet.inside seg member point inSeg

theorem stateAfter_congr {shots' : List Point}
    (same : ∀ point, Inside point → (point ∈ shots ↔ point ∈ shots')) {point : Point}
    (inside : Inside point) : fleet.stateAfter shots point = fleet.stateAfter shots' point := by
  have sunk {seg : Segment} (member : seg ∈ fleet.segments) : Sunk shots seg ↔ Sunk shots' seg :=
    forall₂_congr fun cell inSeg => same cell (fleet.inside seg member cell inSeg)
  have beside : fleet.Beside shots point ↔ fleet.Beside shots' point :=
    exists_congr fun seg => and_congr_right fun member => and_congr_left' (sunk member)
  simp only [stateAfter, same point inside, beside]

theorem shows_start {f : GameField} (fills : fleet.Fills f) : fleet.Shows [] f := by
  intro point inside
  have sunk {seg : Segment} (member : seg ∈ fleet.segments) : ¬ Sunk [] seg := fun all =>
    List.not_mem_nil (all _ (Segment.start_mem (fleet.sized member).1))
  have beside : ¬ fleet.Beside [] point := by
    rintro ⟨seg, member, all, -⟩
    exact sunk member all
  by_cases holds : fleet.Holds point
  · simp only [stateAfter, holds, List.not_mem_nil, ↓reduceIte]
    exact (fills.covers point inside).mpr holds
  · simp only [stateAfter, holds, List.not_mem_nil, beside, or_self, ↓reduceIte]
    exact fills.water inside fun seg member inSeg => holds ⟨seg, member, inSeg⟩

theorem Shows.state (shows_ : fleet.Shows shots g) {point : Point} (inside : Inside point) :
    g.getState point = fleet.stateAfter shots point := by
  rw [GameField.getState_inside g inside, shows_ point inside]
  cases fleet.stateAfter shots point <;> rfl

theorem Shows.congr {shots' : List Point} (shows_ : fleet.Shows shots g)
    (same : ∀ point, Inside point → (point ∈ shots ↔ point ∈ shots')) : fleet.Shows shots' g := by
  intro point inside
  rw [shows_ point inside, stateAfter_congr same inside]

theorem stateAfter_holds {point : Point} (holds : fleet.Holds point) :
    fleet.stateAfter shots point = if point ∈ shots then .damaged else .unharmed :=
  if_pos holds

theorem stateAfter_water {point : Point} (water : ¬ fleet.Holds point) :
    fleet.stateAfter shots point =
      if point ∈ shots ∨ fleet.Beside shots point then .missed else .empty :=
  if_neg water

theorem Shows.afloat (shows_ : fleet.Shows shots g) {seg : Segment}
    (member : seg ∈ fleet.segments) : g.Afloat seg := by
  constructor
  · intro cell inSeg
    rw [shows_.state (fleet.inside seg member cell inSeg), stateAfter_holds ⟨seg, member, inSeg⟩]
    split_ifs
    · exact .inr rfl
    · exact .inl rfl
  · intro cell inSeg point near outside
    by_cases inside : Inside point
    · have water : ¬ fleet.Holds point := by
        rintro ⟨other, inFleet, inOther⟩
        obtain rfl := Segment.eq_of_near fleet.apart member inFleet inSeg inOther near
        exact outside inOther
      rw [shows_.state inside, stateAfter_water water]
      split_ifs
      · exact .inr rfl
      · exact .inl rfl
    · exact .inl (GameField.getState_outside g inside)

theorem stateAfter_shot_water {shot : Point} (water : ¬ fleet.Holds shot) (point : Point) :
    fleet.stateAfter (shots ++ [shot]) point =
      if point = shot then .missed else fleet.stateAfter shots point := by
  have sunk {seg : Segment} (member : seg ∈ fleet.segments) :
      Sunk (shots ++ [shot]) seg ↔ Sunk shots seg := by
    refine forall₂_congr fun cell inSeg => ?_
    have other : cell ≠ shot := by
      rintro rfl
      exact water ⟨seg, member, inSeg⟩
    simp [other]
  have beside : fleet.Beside (shots ++ [shot]) point ↔ fleet.Beside shots point :=
    exists_congr fun seg => and_congr_right fun member => and_congr_left' (sunk member)
  by_cases here : point = shot
  · subst here
    rw [stateAfter_water water]
    simp
  · simp only [stateAfter, beside, List.mem_append, List.mem_singleton, here, or_false, ↓reduceIte]

/-- A shot at a ship damages the cell and, if it was the last one, marks the water around
the ship. -/
theorem beside_shot_ship {seg : Segment} (member : seg ∈ fleet.segments) {shot : Point}
    (inSeg : shot ∈ seg.cells) (point : Point) :
    fleet.Beside (shots ++ [shot]) point ↔
      fleet.Beside shots point ∨
        (Sunk (shots ++ [shot]) seg ∧ ∃ cell ∈ seg.cells, Near cell point) := by
  constructor
  · rintro ⟨other, inFleet, sunk, near⟩
    by_cases same : other = seg
    · subst same
      exact .inr ⟨sunk, near⟩
    · refine .inl ⟨other, inFleet, fun cell inOther => ?_, near⟩
      have different : cell ≠ shot := by
        rintro rfl
        exact same (Segment.eq_of_near fleet.apart inFleet member inOther inSeg (by simp [Near]))
      simpa [different] using sunk cell inOther
  · rintro (⟨other, inFleet, sunk, near⟩ | ⟨sunk, near⟩)
    · exact ⟨other, inFleet, fun cell inOther => List.mem_append_left _ (sunk cell inOther), near⟩
    · exact ⟨seg, member, sunk, near⟩

theorem Shows.shot_outside (shows_ : fleet.Shows shots g) {shot : Point}
    (outside : ¬ Inside shot) : fleet.Shows (shots ++ [shot]) (g.registerShot shot).2 := by
  rw [GameField.registerShot_refused g shot fun untried => outside untried.1]
  refine shows_.congr fun point inside => ?_
  have other : point ≠ shot := by
    rintro rfl
    exact outside inside
  simp [other]

theorem Shows.shot_water (shows_ : fleet.Shows shots g) {shot : Point} (inside : Inside shot)
    (water : ¬ fleet.Holds shot) : fleet.Shows (shots ++ [shot]) (g.registerShot shot).2 := by
  have state := shows_.state inside
  rw [stateAfter_water water] at state
  intro point within
  rw [stateAfter_shot_water water]
  split_ifs at state with tried
  · rw [GameField.registerShot_refused g shot (by simp [GameField.Untried, state])]
    split_ifs with here
    · subst here
      exact (GameField.getState_missed.mp state).2
    · exact shows_ point within
  · rw [GameField.registerShot_missed g shot inside state, GameField.at'_put g inside]
    split_ifs with here
    · rfl
    · exact shows_ point within

theorem Shows.shot_again (shows_ : fleet.Shows shots g) {shot : Point}
    (holds : fleet.Holds shot) (before : shot ∈ shots) :
    fleet.Shows (shots ++ [shot]) (g.registerShot shot).2 := by
  have state := shows_.state (holds_inside holds)
  rw [stateAfter_holds holds, if_pos before] at state
  rw [GameField.registerShot_refused g shot (by simp [GameField.Untried, state])]
  refine shows_.congr fun point _ => ?_
  simp only [List.mem_append, List.mem_singleton]
  constructor
  · exact .inl
  · rintro (there | rfl)
    · exact there
    · exact before

theorem afloat_hit {seg : Segment} (afloat : g.Afloat seg) {shot : Point} (inside : Inside shot)
    (inSeg : shot ∈ seg.cells) : (g.put shot 2).Afloat seg := by
  constructor
  · intro cell inCell
    by_cases here : cell = shot
    · subst here
      exact .inr (GameField.getState_hit g inside)
    · rw [GameField.getState_put_other g inside here]
      exact afloat.ship cell inCell
  · intro cell inCell point near outside
    have here : point ≠ shot := by
      rintro rfl
      exact outside inSeg
    rw [GameField.getState_put_other g inside here]
    exact afloat.water cell inCell point near outside

theorem Shows.hit_sunk_iff (shows_ : fleet.Shows shots g) {shot : Point} {seg : Segment}
    (member : seg ∈ fleet.segments) (inSeg : shot ∈ seg.cells) :
    (∀ cell ∈ seg.cells, (g.put shot 2).getState cell = .damaged) ↔ Sunk (shots ++ [shot]) seg := by
  have inside := fleet.inside seg member shot inSeg
  refine forall₂_congr fun cell inCell => ?_
  by_cases here : cell = shot
  · subst here
    simp [GameField.getState_hit g inside]
  · rw [GameField.getState_put_other g inside here,
      shows_.state (fleet.inside seg member cell inCell), stateAfter_holds ⟨seg, member, inCell⟩]
    by_cases old : cell ∈ shots <;> simp [old, here]

/-- The test of `register_shot` after a hit. -/
theorem Shows.hit_destroyed_iff (shows_ : fleet.Shows shots g) {shot : Point} {seg : Segment}
    (member : seg ∈ fleet.segments) (inSeg : shot ∈ seg.cells) :
    (g.put shot 2).shipDestroyed shot = true ↔ Sunk (shots ++ [shot]) seg := by
  have inside := fleet.inside seg member shot inSeg
  rw [GameField.shipDestroyed_iff (fleet.sized member)
    (afloat_hit (shows_.afloat member) inside inSeg) inSeg (GameField.getState_hit g inside)]
  exact shows_.hit_sunk_iff member inSeg

theorem Shows.shot_hit (shows_ : fleet.Shows shots g) {shot : Point} {seg : Segment}
    (member : seg ∈ fleet.segments) (inSeg : shot ∈ seg.cells) (fresh : shot ∉ shots) :
    fleet.Shows (shots ++ [shot]) (g.registerShot shot).2 := by
  have holds : fleet.Holds shot := ⟨seg, member, inSeg⟩
  have inside := holds_inside holds
  have state := shows_.state inside
  rw [stateAfter_holds holds, if_neg fresh] at state
  rw [GameField.registerShot_unharmed state]
  have hit {point : Point} (within : Inside point) :
      (g.put shot 2).at' point = if point = shot then 2 else g.at' point :=
    GameField.at'_put g inside point 2
  have others {point : Point} (within : Inside point) (other : point ≠ shot) :
      (g.put shot 2).getState point = fleet.stateAfter shots point := by
    rw [GameField.getState_put_other g inside other, shows_.state within]
  have afloat := afloat_hit (shows_.afloat member) inside inSeg
  have sunk := shows_.hit_sunk_iff member inSeg
  have destroyed := shows_.hit_destroyed_iff member inSeg
  generalize g.put shot 2 = h at *
  -- Before the boundary is marked only the cell itself has changed.
  have unmarked {point : Point} (within : Inside point)
      (same : fleet.Holds point ∨ (fleet.Beside (shots ++ [shot]) point ↔ fleet.Beside shots point)) :
      h.at' point = (fleet.stateAfter (shots ++ [shot]) point).toCell := by
    rw [hit within]
    by_cases here : point = shot
    · subst here
      rw [if_pos rfl, stateAfter_holds holds, if_pos (by simp)]
      rfl
    · rw [if_neg here, shows_ point within]
      by_cases ship : fleet.Holds point
      · simp [stateAfter_holds ship, here]
      · simp [stateAfter_water ship, here, same.resolve_left ship]
  have beside (point : Point) : fleet.Beside (shots ++ [shot]) point ↔ fleet.Beside shots point ∨
      (Sunk (shots ++ [shot]) seg ∧ ∃ cell ∈ seg.cells, Near cell point) :=
    beside_shot_ship member inSeg point
  intro point within
  by_cases complete : Sunk (shots ++ [shot]) seg
  · rw [if_pos (destroyed.mpr complete)]
    have marks := GameField.markDestroyedShipBoundary_marks (fleet.sized member) afloat
      (sunk.mpr complete) inSeg
    have apart {point : Point} (water : ¬ fleet.Holds point) : point ≠ shot := by
      rintro rfl
      exact water holds
    by_cases marked : h.getState point = .empty ∧ ∃ cell ∈ seg.cells, Near cell point
    · have water : ¬ fleet.Holds point := by
        intro ship
        have cell := unmarked within (.inl ship)
        have empty := (GameField.getState_empty_inside within).mp marked.1
        rw [cell, stateAfter_holds ship] at empty
        split_ifs at empty <;> simp [CellState.toCell] at empty
      rw [marks.missed point within marked.1 marked.2, stateAfter_water water,
        if_pos (.inr ((beside point).mpr (.inr ⟨complete, marked.2⟩)))]
      rfl
    · rw [marks.kept point within marked]
      by_cases ship : fleet.Holds point
      · exact unmarked within (.inl ship)
      by_cases near : ∃ cell ∈ seg.cells, Near cell point
      · -- The cell was not empty any more.
        have full : h.getState point ≠ .empty := fun empty => marked ⟨empty, near⟩
        rw [others within (apart ship), stateAfter_water ship] at full
        have tried : point ∈ shots ∨ fleet.Beside shots point := by
          by_contra none
          exact full (if_neg none)
        have again : point ∈ shots ++ [shot] ∨ fleet.Beside (shots ++ [shot]) point :=
          tried.imp (List.mem_append_left _) fun old => (beside point).mpr (.inl old)
        rw [hit within, if_neg (apart ship), shows_ point within, stateAfter_water ship,
          if_pos tried, stateAfter_water ship, if_pos again]
      · exact unmarked within (.inr ((beside point).trans (or_iff_left fun both => near both.2)))
  · rw [if_neg (destroyed.not.mpr complete)]
    exact unmarked within (.inr ((beside point).trans (or_iff_left fun both => complete both.1)))

theorem Shows.shot (shows_ : fleet.Shows shots g) (shot : Point) :
    fleet.Shows (shots ++ [shot]) (g.registerShot shot).2 := by
  by_cases inside : Inside shot
  · by_cases holds : fleet.Holds shot
    · by_cases before : shot ∈ shots
      · exact shows_.shot_again holds before
      · obtain ⟨seg, member, inSeg⟩ := holds
        exact shows_.shot_hit member inSeg before
    · exact shows_.shot_water inside holds
  · exact shows_.shot_outside inside

/-- After any shots the field shows what their points make of the fleet. -/
theorem shows_bombard {f : GameField} (fills : fleet.Fills f) (shots : List Point) :
    fleet.Shows shots (f.bombard shots) := by
  induction shots using List.reverseRecOn with
  | nil => exact shows_start fills
  | append_singleton shots shot ih =>
      rw [GameField.bombard_snoc]
      exact ih.shot shot

end Fleet

namespace GameField

structure Answers (f : GameField) (point : Point) : Prop where
  damaged : (f.registerShot point).1 = .damaged ↔ Inside point ∧ f.at' point = CellState.unharmed.toCell
  missed : (f.registerShot point).1 = .missed ↔ Inside point ∧ f.at' point = CellState.empty.toCell
  other : (f.registerShot point).1 ≠ .damaged → (f.registerShot point).1 ≠ .missed →
    f.registerShot point = (.empty, f)

theorem registerShot_answers (f : GameField) (point : Point)
    (values : Inside point → ∃ state : CellState, f.at' point = state.toCell) :
    f.Answers point := by
  by_cases inside : Inside point
  · obtain ⟨state, cell⟩ := values inside
    have shown : f.getState point = state := by
      rw [getState_inside f inside, cell]
      cases state <;> rfl
    cases state with
    | empty =>
        have shot := registerShot_missed f point inside shown
        exact ⟨by simp [shot, cell, CellState.toCell], by simp [shot, inside, cell], by simp [shot]⟩
    | unharmed =>
        have shot := registerShot_unharmed shown
        exact ⟨by simp [shot, inside, cell], by simp [shot, cell, CellState.toCell], by simp [shot]⟩
    | damaged | missed =>
        have shot := registerShot_refused f point (by simp [Untried, shown])
        exact ⟨by simp [shot, cell, CellState.toCell], by simp [shot, cell, CellState.toCell],
          fun _ _ => shot⟩
  · have shot := registerShot_refused f point fun untried => inside untried.1
    exact ⟨by simp [shot, inside], by simp [shot, inside], fun _ _ => shot⟩

theorem count_damaged (f : GameField) (shots : List Point) :
    (f.bombard shots).count 1 + (f.answers shots).count .damaged = f.count 1 := by
  induction shots using List.reverseRecOn with
  | nil => rfl
  | append_singleton shots shot ih =>
      have moved := (registerShot_count (f.bombard shots) shot).1
      rw [bombard_snoc, answers_snoc, List.count_append, List.count_singleton]
      simp only [beq_iff_eq]
      omega

/-- What a bombardment does to a field that shows this fleet. -/
structure Bombarded (fleet : Fleet) (f : GameField) : Prop where
  /-- The cells after any shots. -/
  cells : ∀ shots point, Inside point →
    (f.bombard shots).at' point = (fleet.stateAfter shots point).toCell
  /-- Order, repetition and points outside do not matter. -/
  order : ∀ shots shots' : List Point, (∀ point, Inside point → (point ∈ shots ↔ point ∈ shots')) →
    f.bombard shots = f.bombard shots'
  answer : ∀ shots point, (f.bombard shots).Answers point
  /-- All ships are destroyed from the eighteenth hit on, and there are no more hits. -/
  destroyed : ∀ shots, (f.answers shots).count .damaged ≤ 18 ∧
    ((f.bombard shots).allShipsDestroyed = true ↔ (f.answers shots).count .damaged = 18)

/-- An accepted start field shows a fleet, and shots do to it what they do to the fleet. -/
theorem bombarded_field {f : GameField} {past : Nat → Nat → Cell}
    (valid : f.isValidStartFieldWith past = true) :
    (∃ fleet : Fleet, fleet.Fills f) ∧
      ∀ fleet : Fleet, fleet.Fills f → Bombarded fleet f := by
  refine ⟨fleet_of_valid past valid, fun fleet fills => ?_⟩
  have whole : f.count 1 = 18 := count_validStartField (valid_of_fleet (fun _ _ => 0) fills)
  have shows_ := Fleet.shows_bombard fills
  refine ⟨shows_, fun shots shots' same => ?_, fun shots point => ?_, fun shots => ?_⟩
  · apply ext_at
    intro point inside
    rw [shows_ shots point inside, shows_ shots' point inside, Fleet.stateAfter_congr same inside]
  · exact registerShot_answers _ point fun inside => ⟨_, shows_ shots point inside⟩
  · have total := count_damaged f shots
    rw [whole] at total
    rw [allShipsDestroyed_iff]
    omega

theorem bombarded_field_opening :
    (∃ fleet : Fleet, fleet.Fills openingField) ∧
      ∀ fleet : Fleet, fleet.Fills openingField → Bombarded fleet openingField :=
  @bombarded_field openingField (fun _ _ => 0) (by decide +kernel)

end GameField
end Battleship
