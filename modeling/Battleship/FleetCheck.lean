import Battleship.Segment

/-! The start-field check accepts exactly the fields that show a legal fleet. The scan
erases the segments of the fleet one after the other, each from its upper or left end;
the checks afterwards say that they have the right lengths and do not touch. -/
namespace Battleship.GameField

section Scan
variable (past : Nat → Nat → Cell)

/-- The row up to the next empty cell, or if this is but one cell the column. -/
def foundSegment (tmp : GameField) (i j : Nat) : Segment :=
  let across := rowEnd past tmp i fldSz j - j
  if across = 1 then ⟨⟨j, i⟩, columnEnd past tmp j fldSz i - i, true⟩
  else ⟨⟨j, i⟩, across, false⟩

theorem scanShip_eq (tmp : GameField) {i j : Nat} (row : i < fldSz) (column : j < fldSz)
    (taken : readAt past tmp i j ≠ 0) :
    scanShip past tmp i j =
      if (foundSegment past tmp i j).len ≤ 5 then
        some ((foundSegment past tmp i j).ship, rowEnd past tmp i fldSz j - 1)
      else none := by
  have known {s : Segment} (long : 1 ≤ s.len) : s.ship.type = .invalid ↔ ¬ s.len ≤ 5 := by
    rw [← not_iff_not, not_not]
    exact Segment.shipType_known.trans (and_iff_right long)
  obtain ⟨across, stop⟩ : ∃ across, rowEnd past tmp i fldSz j = j + (across + 1) :=
    Nat.exists_eq_add_of_lt (rowEnd_moves past tmp column taken)
  obtain ⟨down, bottom⟩ : ∃ down, columnEnd past tmp j fldSz i = i + (down + 1) :=
    Nat.exists_eq_add_of_lt (columnEnd_moves past tmp row taken)
  have rowTail : j + (across + 1) - 1 = j + across := rfl
  have columnTail : i + (down + 1) - 1 = i + down := rfl
  -- Only a ship of one cell in its row is followed down the column.
  by_cases single : across = 0
  · subst single
    have found : foundSegment past tmp i j = ⟨⟨j, i⟩, down + 1, true⟩ := by
      simp [foundSegment, stop, bottom]
    have alone : Ship.ofEnds ⟨j, i⟩ ⟨j, i⟩ = ⟨.submarine, ⟨(j : Int), i⟩, ⟨j, i⟩⟩ := by
      simp [Ship.ofEnds]
    have ends := Segment.ofEnds_vertical j i (Nat.succ_pos down)
    simp only [Nat.succ_eq_add_one, Nat.cast_add, Nat.cast_one, Int.add_sub_cancel] at ends
    rw [found]
    unfold scanShip
    simp only [stop, Nat.zero_add, Nat.add_sub_cancel, alone, bottom, columnTail,
      Nat.cast_add, ends, reduceCtorEq, ↓reduceIte, ne_eq, not_true_eq_false]
    by_cases one : down = 0
    · subst one
      simp [Segment.ship_single]
    · have below : ¬ i + down = i := by omega
      simp only [below, known (s := ⟨⟨(j : Int), i⟩, down + 1, true⟩) (Nat.succ_pos down),
        not_false_eq_true, ↓reduceIte]
      exact ite_not _ _ _
  · have several : across + 1 ≠ 1 := by omega
    have found : foundSegment past tmp i j = ⟨⟨j, i⟩, across + 1, false⟩ := by
      simp [foundSegment, stop, single]
    have ends := Segment.ofEnds_horizontal j i (Nat.succ_pos across)
    simp only [Nat.succ_eq_add_one, Nat.cast_add, Nat.cast_one, Int.add_sub_cancel] at ends
    rw [found]
    unfold scanShip
    simp only [stop, rowTail, Nat.cast_add, ends, ne_eq, Segment.ship_submarine, several,
      known (s := ⟨⟨(j : Int), i⟩, across + 1, false⟩) (Nat.succ_pos across), not_false_eq_true,
      ↓reduceIte]
    exact ite_not _ _ _

theorem rowEnd_eq (tmp : GameField) {i j stop : Nat} (row : i < fldSz) (low : j ≤ stop)
    (high : stop ≤ fldSz) (run : ∀ x : Nat, j ≤ x → x < stop → tmp.at' ⟨x, i⟩ ≠ 0)
    (ends : stop < fldSz → tmp.at' ⟨stop, i⟩ = 0) : rowEnd past tmp i fldSz j = stop := by
  rw [rowEnd_eq_runEnd]
  apply runEnd_eq _ low (by omega)
  · intro x atLeast below
    have column : x < fldSz := by omega
    rw [readAt_inside past tmp row column]
    exact ⟨run x atLeast below, column⟩
  · rintro ⟨taken, column⟩
    rw [readAt_inside past tmp row column] at taken
    exact taken (ends column)

theorem columnEnd_eq (tmp : GameField) {i j stop : Nat} (column : j < fldSz) (low : i ≤ stop)
    (high : stop ≤ fldSz) (run : ∀ y : Nat, i ≤ y → y < stop → tmp.at' ⟨j, y⟩ ≠ 0)
    (ends : stop < fldSz → tmp.at' ⟨j, stop⟩ = 0) : columnEnd past tmp j fldSz i = stop := by
  rw [columnEnd_eq_runEnd]
  apply runEnd_eq _ low (by omega)
  · intro y atLeast below
    have row : y < fldSz := by omega
    rw [readAt_inside past tmp row column]
    exact ⟨run y atLeast below, row⟩
  · rintro ⟨taken, row⟩
    rw [readAt_inside past tmp row column] at taken
    exact taken (ends row)

structure Found (f : GameField) (segments : List Segment) (s : ScanState) : Prop where
  ships : s.shipArr = segments.map Segment.ship
  sized : ∀ seg ∈ segments, seg.Sized
  taken : ∀ seg ∈ segments, ∀ cell ∈ seg.cells, Inside cell ∧ f.at' cell ≠ 0
  disjoint : segments.Pairwise fun s t => ∀ cell ∈ s.cells, cell ∉ t.cells
  left : ∀ point, Inside point →
    (s.tmp.at' point ≠ 0 ↔ f.at' point ≠ 0 ∧ ∀ seg ∈ segments, point ∉ seg.cells)

theorem found_start (f : GameField) : Found f [] ⟨f, []⟩ :=
  ⟨rfl, nofun, nofun, .nil, fun _ _ => by simp⟩

theorem removeShip_segment (tmp : GameField) {seg : Segment} (sized : seg.Sized)
    (inside : ∀ cell ∈ seg.cells, Inside cell) (point : Point) :
    (removeShip seg.ship tmp).at' point = if point ∈ seg.cells then 0 else tmp.at' point := by
  have cells := Segment.ship_cells sized
  rw [removeShip, if_neg (Segment.ship_known sized), cells]
  exact erase_cells seg.cells tmp inside point

theorem Found.add {f : GameField} {segments : List Segment} {s : ScanState}
    (found : Found f segments s) {seg : Segment} (sized : seg.Sized)
    (taken : ∀ cell ∈ seg.cells, Inside cell ∧ s.tmp.at' cell ≠ 0) :
    Found f (segments ++ [seg]) ⟨removeShip seg.ship s.tmp, s.shipArr ++ [seg.ship]⟩ := by
  have before {cell : Point} (member : cell ∈ seg.cells) :=
    (found.left cell (taken cell member).1).mp (taken cell member).2
  constructor
  · rw [found.ships, List.map_append, List.map_singleton]
  · intro other member
    rcases List.mem_append.mp member with old | new
    · exact found.sized other old
    · obtain rfl := List.mem_singleton.mp new
      exact sized
  · intro other member
    rcases List.mem_append.mp member with old | new
    · exact found.taken other old
    · obtain rfl := List.mem_singleton.mp new
      exact fun cell inSeg => ⟨(taken cell inSeg).1, (before inSeg).1⟩
  · refine List.pairwise_append.mpr ⟨found.disjoint, List.pairwise_singleton _ _, ?_⟩
    intro other old new member cell inOther inNew
    obtain rfl := List.mem_singleton.mp member
    exact (before inNew).2 other old inOther
  · intro point inside
    rw [removeShip_segment s.tmp sized fun cell member => (taken cell member).1]
    have others := found.left point inside
    by_cases member : point ∈ seg.cells
    · simp only [member, ↓reduceIte, ne_eq, not_true_eq_false, false_iff, not_and, not_forall]
      exact fun _ => ⟨seg, by simp, fun absent => absent member⟩
    · simp only [member, ↓reduceIte, others, List.forall_mem_append, List.forall_mem_singleton,
        not_false_eq_true, and_true]

end Scan

theorem nbrEmpty_iff (f : GameField) (nbr : Point) :
    f.nbrEmpty nbr = true ↔ (Inside nbr → f.at' nbr = 0) := by
  rw [nbrEmpty, Bool.or_eq_true, Bool.not_eq_true', ← Bool.not_eq_true, contains_iff,
    decide_eq_true_iff]
  exact (imp_iff_not_or).symm

theorem all_nbrEmpty_iff (f : GameField) (deltas : List Point) (tmp : Point) :
    (deltas.all fun d => f.nbrEmpty (tmp + d)) = true ↔
      ∀ point : Point, ⟨point.x - tmp.x, point.y - tmp.y⟩ ∈ deltas → Inside point →
        f.at' point = 0 := by
  simp only [List.all_eq_true, nbrEmpty_iff]
  constructor
  · intro all point member
    have moved : tmp + ⟨point.x - tmp.x, point.y - tmp.y⟩ = point := by
      ext <;> simp
    have empty := all _ member
    rwa [moved] at empty
  · intro all d member
    apply all
    simpa using member

def Lone (f : GameField) (seg : Segment) : Prop :=
  ∀ cell ∈ seg.cells, ∀ point, Near cell point → point ∉ seg.cells → Inside point → f.at' point = 0

theorem shipApart_vertical (f : GameField) {start : Point} {len : Nat}
    (sized : Segment.Sized ⟨start, len, true⟩) :
    f.shipApart (Segment.ship ⟨start, len, true⟩) = true ↔ f.Lone ⟨start, len, true⟩ := by
  have long : 1 ≤ len := sized.1
  have vertical := (Segment.ship_isVertical sized).mpr (.inl rfl)
  have cells := Segment.ship_cells sized
  have head : (Segment.ship ⟨start, len, true⟩).head = start := rfl
  have tail : (Segment.ship ⟨start, len, true⟩).tail = ⟨start.x, start.y + (len - 1)⟩ := by
    simp [Segment.ship, Segment.last, Segment.delta]
  unfold shipApart Lone
  simp only [vertical, cells, head, tail, ↓reduceIte, List.all_eq_true (l := Segment.cells _),
    Bool.and_eq_true, all_nbrEmpty_iff, Bool.or_eq_true, Bool.not_eq_true', decide_eq_false_iff_not,
    ← imp_iff_not_or, Segment.mem_vertical, Near, List.mem_cons, List.not_mem_nil, Point.mk.injEq,
    or_false]
  constructor
  · intro all cell member point near outside
    by_cases above : point.y < start.y
    · exact (all start ⟨rfl, le_refl _, by omega⟩).1.1 rfl point (by omega)
    by_cases below : start.y + len ≤ point.y
    · exact (all ⟨start.x, start.y + (len - 1)⟩ ⟨rfl, by simp; omega, by simp⟩).1.2 rfl point
        (by simp only; omega)
    · exact (all ⟨start.x, point.y⟩ ⟨rfl, by simp; omega, by simp; omega⟩).2 point
        (by simp only; omega)
  · intro lone cell member
    refine ⟨⟨?_, ?_⟩, fun point nbr => lone cell member point (by omega) (by omega)⟩
    · rintro rfl point nbr
      exact lone cell member point (by omega) (by omega)
    · rintro rfl point nbr
      simp only at nbr
      exact lone ⟨start.x, start.y + (len - 1)⟩ member point (by simp only; omega) (by omega)

theorem shipApart_horizontal (f : GameField) {start : Point} {len : Nat}
    (sized : Segment.Sized ⟨start, len, false⟩) (several : len ≠ 1) :
    f.shipApart (Segment.ship ⟨start, len, false⟩) = true ↔ f.Lone ⟨start, len, false⟩ := by
  have long : 1 ≤ len := sized.1
  have horizontal : (Segment.ship ⟨start, len, false⟩).isVertical = false := by
    rw [← Bool.not_eq_true, Segment.ship_isVertical sized]
    simp [several]
  have cells := Segment.ship_cells sized
  have head : (Segment.ship ⟨start, len, false⟩).head = start := rfl
  have tail : (Segment.ship ⟨start, len, false⟩).tail = ⟨start.x + (len - 1), start.y⟩ := by
    simp [Segment.ship, Segment.last, Segment.delta]
  unfold shipApart Lone
  simp only [horizontal, cells, head, tail, Bool.false_eq_true, ↓reduceIte,
    List.all_eq_true (l := Segment.cells _), Bool.and_eq_true, all_nbrEmpty_iff, Bool.or_eq_true,
    Bool.not_eq_true', decide_eq_false_iff_not, ← imp_iff_not_or, Segment.mem_horizontal, Near,
    List.mem_cons, List.not_mem_nil, Point.mk.injEq, or_false]
  constructor
  · intro all cell member point near outside
    by_cases before : point.x < start.x
    · exact (all start ⟨rfl, le_refl _, by omega⟩).1.1 rfl point (by omega)
    by_cases behind : start.x + len ≤ point.x
    · exact (all ⟨start.x + (len - 1), start.y⟩ ⟨rfl, by simp; omega, by simp⟩).1.2 rfl point
        (by simp only; omega)
    · exact (all ⟨point.x, start.y⟩ ⟨rfl, by simp; omega, by simp; omega⟩).2 point
        (by simp only; omega)
  · intro lone cell member
    refine ⟨⟨?_, ?_⟩, fun point nbr => lone cell member point (by omega) (by omega)⟩
    · rintro rfl point nbr
      exact lone cell member point (by omega) (by omega)
    · rintro rfl point nbr
      simp only at nbr
      exact lone ⟨start.x + (len - 1), start.y⟩ member point (by simp only; omega) (by omega)

theorem shipApart_iff (f : GameField) {seg : Segment} (sized : seg.Sized) :
    f.shipApart seg.ship = true ↔ f.Lone seg := by
  obtain ⟨start, len, vertical⟩ := seg
  cases vertical with
  | true => exact shipApart_vertical f sized
  | false =>
      by_cases single : len = 1
      · subst single
        rw [Segment.ship_single, ← Segment.ship_single start true]
        exact shipApart_vertical f ⟨le_refl 1, by simp⟩
      · exact shipApart_horizontal f sized single

theorem shipType_eq (len : Nat) (type : ShipType) (known : type ≠ .invalid) :
    shipType len = type ↔ len = shipLength type := by
  unfold shipType
  cases type with
  | invalid => exact absurd rfl known
  | _ =>
      simp only [shipLength]
      split_ifs <;> simp <;> omega

theorem rightFleet_iff {segments : List Segment} (sized : ∀ seg ∈ segments, seg.Sized) :
    rightFleet (segments.map Segment.ship) = true ↔
      (segments.map Segment.len).Perm [1, 1, 2, 2, 3, 4, 5] := by
  have counted (type : ShipType) (valid : type ≠ .invalid) :
      (segments.map Segment.ship).countP (fun ship => decide (ship.type = type)) =
        (segments.map Segment.len).count (shipLength type) := by
    rw [List.countP_map, List.count, List.countP_map]
    apply List.countP_congr
    intro seg _
    simp [Segment.ship, shipType_eq seg.len type valid]
  have known : (segments.map Segment.ship).all (fun ship => decide (ship.type ≠ .invalid)) = true := by
    simp only [List.all_eq_true, List.mem_map, decide_eq_true_eq]
    rintro _ ⟨seg, member, rfl⟩
    exact Segment.ship_known (sized seg member)
  simp only [rightFleet, known, Bool.true_and, List.all_cons, List.all_nil, Bool.and_eq_true,
    decide_eq_true_eq, and_true, counted, ne_eq, reduceCtorEq, not_false_eq_true, shipLength,
    shipCount]
  constructor
  · intro counts
    rw [List.perm_iff_count]
    intro len
    -- Lengths outside 1 to 5 occur on neither side.
    by_cases range : 1 ≤ len ∧ len ≤ 5
    · obtain ⟨low, high⟩ := range
      interval_cases len <;> simp [counts]
    · have absent : len ∉ segments.map Segment.len := by
        intro member
        obtain ⟨seg, inside, rfl⟩ := List.mem_map.mp member
        exact range (sized seg inside)
      rw [List.count_eq_zero_of_not_mem absent, List.count_eq_zero_of_not_mem]
      intro member
      simp only [List.mem_cons, List.not_mem_nil, or_false] at member
      omega
  · intro perm
    simp [perm.count_eq]

section Scan
variable (past : Nat → Nat → Cell)

theorem foundSegment_long (tmp : GameField) {i j : Nat} (row : i < fldSz) (column : j < fldSz)
    (taken : readAt past tmp i j ≠ 0) : 1 ≤ (foundSegment past tmp i j).len := by
  have across := rowEnd_moves past tmp column taken
  have down := columnEnd_moves past tmp row taken
  simp only [foundSegment]
  split_ifs
  · simp only
    omega
  · simp only
    omega

theorem foundSegment_taken (tmp : GameField) {i j : Nat} (row : i < fldSz) (column : j < fldSz) :
    ∀ cell ∈ (foundSegment past tmp i j).cells, Inside cell ∧ tmp.at' cell ≠ 0 := by
  obtain ⟨-, rowHigh, rowCells⟩ := rowEnd_spec past tmp row fldSz j (Nat.le_of_lt column)
  obtain ⟨-, columnHigh, columnCells⟩ :=
    columnEnd_spec past tmp column fldSz i (Nat.le_of_lt row)
  intro cell member
  simp only [foundSegment] at member
  split_ifs at member
  · obtain ⟨atX, low, high⟩ := Segment.mem_vertical.mp member
    simp only at atX low high
    refine ⟨⟨by omega, by omega, by omega, by omega⟩, ?_⟩
    have here : cell = ⟨j, cell.y.toNat⟩ := by
      ext <;> simp <;> omega
    rw [here]
    exact columnCells cell.y.toNat (by omega) (by omega)
  · obtain ⟨atY, low, high⟩ := Segment.mem_horizontal.mp member
    simp only at atY low high
    refine ⟨⟨by omega, by omega, by omega, by omega⟩, ?_⟩
    have here : cell = ⟨cell.x.toNat, i⟩ := by
      ext <;> simp <;> omega
    rw [here]
    exact rowCells cell.x.toNat (by omega) (by omega)

theorem Found.cell {f : GameField} {segments : List Segment} {s : ScanState}
    (found : Found f segments s) {i j : Nat} (row : i < fldSz) (column : j < fldSz) :
    Comes True (fun next => j < next.1 ∧ ∃ segments', Found f segments' next.2)
      (scanCell past i j s) := by
  unfold scanCell
  by_cases empty : readAt past s.tmp i j = CellState.empty.toCell
  · rw [if_pos empty]
    exact ⟨Nat.lt_succ_self j, segments, found⟩
  · rw [if_neg empty, scanShip_eq past s.tmp row column empty]
    have across := rowEnd_moves past s.tmp column empty
    by_cases fits : (foundSegment past s.tmp i j).len ≤ 5
    · rw [if_pos fits, Option.bind_some]
      split_ifs with excess
      · trivial
      · refine ⟨by simp only; omega, _, found.add ?_ (foundSegment_taken past s.tmp row column)⟩
        exact ⟨foundSegment_long past s.tmp row column empty, fits⟩
    · rw [if_neg fits]
      trivial

theorem fleet_of_valid {f : GameField} (valid : f.isValidStartFieldWith past = true) :
    ∃ fleet : Fleet, fleet.Fills f := by
  simp only [isValidStartFieldWith, isValidField, Bool.and_eq_true, decide_eq_true_eq] at valid
  obtain ⟨⟨_, _, checks⟩, values⟩ := valid
  -- Two invariants of the scan: what it has passed is erased, and each ship is a segment.
  have scanned : Comes True (Scanned f fldSz 0) (scanRows past fldSz 0 ⟨f, []⟩) :=
    scanRows_rule (Scanned f) (fun i j s row column inv => inv.cell past row column)
      (fun i j s done inv => inv.wrap done) fldSz 0 rfl (scanned_start f)
  have finds : Comes True (fun s => ∃ segments, Found f segments s)
      (scanRows past fldSz 0 ⟨f, []⟩) := by
    apply scanRows_rule (fun _ _ s => ∃ segments, Found f segments s)
    · rintro i j s row column ⟨segments, found⟩
      exact found.cell past row column
    · exact fun i j s _ inv => inv
    · rfl
    · exact ⟨[], found_start f⟩
  cases scan : scanRows past fldSz 0 ⟨f, []⟩ with
  | none => simp [scan] at checks
  | some s =>
      rw [scan] at scanned finds
      obtain ⟨segments, found⟩ := finds
      simp only [scan, Bool.and_eq_true, found.ships, rightFleet_iff found.sized,
        List.all_map, List.all_eq_true] at checks
      obtain ⟨⟨_, lengths⟩, lone⟩ := checks
      -- The neighbour checks keep the segments apart.
      have lone (seg : Segment) (member : seg ∈ segments) : f.Lone seg :=
        (shipApart_iff f (found.sized seg member)).mp (lone seg member)
      have apart : segments.Pairwise Segment.Apart := by
        refine found.disjoint.imp_of_mem fun {s t} inS inT disjoint a atA b atB near => ?_
        obtain ⟨inside, whole⟩ := found.taken t inT b atB
        exact whole (lone s inS a atA b near (fun shared => disjoint b shared atB) inside)
      refine ⟨⟨segments, lengths, fun seg member cell inSeg =>
        (found.taken seg member cell inSeg).1, apart⟩, values, fun point inside => ?_⟩
      obtain ⟨y, x, rfl⟩ := inside_iff.mp inside
      have erased : s.tmp.at' ⟨x, y⟩ = 0 := by
        rw [at'_cell]
        exact scanned.erased y x (.inl y.isLt)
      constructor
      · intro whole
        by_contra none
        refine (found.left _ inside).mpr ⟨?_, fun seg member inSeg => none ⟨seg, member, inSeg⟩⟩ erased
        rw [whole]
        decide
      · rintro ⟨seg, member, inSeg⟩
        have taken := (found.taken seg member _ inSeg).2
        rw [at'_cell] at taken ⊢
        exact (values y x).resolve_left taken

/-- The scan comes to a segment at its start, and as there is water around it the scan
takes it for a ship as it is. -/
theorem scanShip_of_segment (tmp : GameField) {i j : Nat} {seg : Segment} (sized : seg.Sized)
    (start : seg.start = ⟨j, i⟩) (taken : ∀ cell ∈ seg.cells, Inside cell ∧ tmp.at' cell ≠ 0)
    (lone : tmp.Lone seg) : ∃ j', scanShip past tmp i j = some (seg.ship, j') := by
  have long : 1 ≤ seg.len := sized.1
  have wide : 1 ≤ seg.width := by
    unfold Segment.width
    split_ifs <;> omega
  have tall : 1 ≤ seg.height := by
    unfold Segment.height
    split_ifs <;> omega
  have member (x y : Nat) : (⟨x, y⟩ : Point) ∈ seg.cells ↔
      (j ≤ x ∧ x < j + seg.width) ∧ i ≤ y ∧ y < i + seg.height := by
    rw [Segment.mem_cells, start]
    simp only
    omega
  have inside (x y : Nat) (here : (⟨x, y⟩ : Point) ∈ seg.cells) : x < fldSz ∧ y < fldSz := by
    obtain ⟨⟨_, column, _, row⟩, _⟩ := taken _ here
    simp only at column row
    omega
  have right := inside (j + seg.width - 1) i ((member _ _).mpr (by omega))
  have bottom := inside j (i + seg.height - 1) ((member _ _).mpr (by omega))
  have water {x y x' y' : Nat} (here : (⟨x, y⟩ : Point) ∈ seg.cells) (near : Near ⟨x, y⟩ ⟨x', y'⟩)
      (outside : (⟨x', y'⟩ : Point) ∉ seg.cells) (column : x' < fldSz) (row : y' < fldSz) :
      tmp.at' ⟨x', y'⟩ = 0 :=
    lone _ here _ near outside (inside_cell ⟨y', row⟩ ⟨x', column⟩)
  -- Beyond the segment there is water or the edge, so both walks stop at its end.
  have across : rowEnd past tmp i fldSz j = j + seg.width := by
    apply rowEnd_eq past tmp right.2 (by omega) (by omega)
    · exact fun x low high => (taken _ ((member x i).mpr (by omega))).2
    · intro beyond
      apply water ((member (j + seg.width - 1) i).mpr (by omega)) _ _ beyond right.2
      · unfold Near
        simp only
        omega
      · rw [member]
        omega
  have down : columnEnd past tmp j fldSz i = i + seg.height := by
    apply columnEnd_eq past tmp bottom.1 (by omega) (by omega)
    · exact fun y low high => (taken _ ((member j y).mpr (by omega))).2
    · intro beyond
      apply water ((member j (i + seg.height - 1)).mpr (by omega)) _ _ bottom.1 beyond
      · unfold Near
        simp only
        omega
      · rw [member]
        omega
  have found : (foundSegment past tmp i j).ship = seg.ship ∧
      (foundSegment past tmp i j).len = seg.len := by
    obtain ⟨start', len, vertical⟩ := seg
    obtain rfl : start' = ⟨j, i⟩ := start
    cases vertical
    · by_cases single : len = 1
      · subst single
        simp [foundSegment, across, down, Segment.width, Segment.height, Segment.ship_single]
      · simp [foundSegment, across, single, Segment.width]
    · simp [foundSegment, across, down, Segment.width, Segment.height]
  have read : readAt past tmp i j ≠ 0 := by
    rw [readAt_inside past tmp right.2 bottom.1]
    exact (taken _ ((member j i).mpr (by omega))).2
  rw [scanShip_eq past tmp right.2 bottom.1 read, found.1, found.2, if_pos sized.2]
  exact ⟨_, rfl⟩

section Fleet
variable {fleet : Fleet} {f : GameField}

theorem lone_of_fills (fills : fleet.Fills f) {seg : Segment} (member : seg ∈ fleet.segments) :
    f.Lone seg := by
  intro cell inSeg point near outside inside
  apply fills.water inside
  intro other inFleet inOther
  obtain rfl := Segment.eq_of_near fleet.apart member inFleet inSeg inOther near
  exact outside inOther

structure Searching (fleet : Fleet) (f : GameField) (found left : List Segment) (s : ScanState) :
    Prop where
  parts : fleet.segments.Perm (found ++ left)
  found : Found f found s

variable {found left : List Segment} {s : ScanState}

theorem Searching.apart (searching : Searching fleet f found left s) {seg other : Segment}
    (inFound : seg ∈ found) (inLeft : other ∈ left) : seg.Apart other := by
  have apart := (searching.parts.pairwise_iff fun apart => Std.Symm.symm _ _ apart).mp fleet.apart
  exact (List.pairwise_append.mp apart).2.2 seg inFound other inLeft

theorem Searching.mem (searching : Searching fleet f found left s) {seg : Segment} :
    seg ∈ fleet.segments ↔ seg ∈ found ∨ seg ∈ left := by
  rw [searching.parts.mem_iff, List.mem_append]

theorem Searching.untouched (searching : Searching fleet f found left s) (fills : fleet.Fills f)
    {seg : Segment} (inLeft : seg ∈ left) {cell : Point} (inSeg : cell ∈ seg.cells) :
    s.tmp.at' cell ≠ 0 := by
  have member := searching.mem.mpr (.inr inLeft)
  refine (searching.found.left cell (fleet.inside seg member cell inSeg)).mpr ⟨?_, ?_⟩
  · rw [fills.whole member inSeg]
    decide
  · intro other inFound inOther
    exact searching.apart inFound inLeft cell inOther cell inSeg (by simp [Near])

theorem Searching.lone (searching : Searching fleet f found left s) (fills : fleet.Fills f)
    {seg : Segment} (inLeft : seg ∈ left) : s.tmp.Lone seg := by
  intro cell inSeg point near outside inside
  have water := lone_of_fills fills (searching.mem.mpr (.inr inLeft)) cell inSeg point near outside inside
  by_contra taken
  exact ((searching.found.left point inside).mp taken).1 water

theorem Searching.next (searching : Searching fleet f found left s) (fills : fleet.Fills f)
    {i j : Nat} (row : i < fldSz) (column : j < fldSz) (scanned : Scanned f i j s)
    (taken : s.tmp.at' ⟨j, i⟩ ≠ 0) : ∃ seg ∈ left, seg.start = ⟨j, i⟩ := by
  have inside : Inside ⟨(j : Int), (i : Int)⟩ := inside_cell ⟨i, row⟩ ⟨j, column⟩
  obtain ⟨whole, fresh⟩ := (searching.found.left _ inside).mp taken
  obtain ⟨seg, member, inSeg⟩ : ∃ seg ∈ fleet.segments, (⟨j, i⟩ : Point) ∈ seg.cells := by
    by_contra none
    exact whole (fills.water inside (by simpa using none))
  have inLeft : seg ∈ left := (searching.mem.mp member).resolve_left fun old => fresh seg old inSeg
  refine ⟨seg, inLeft, ?_⟩
  have start := Segment.start_mem (fleet.sized member).1
  have still := searching.untouched fills inLeft start
  obtain ⟨y, x, at_⟩ := inside_iff.mp (fleet.inside seg member _ start)
  rw [at_, at'_cell] at still
  obtain ⟨⟨left_, _⟩, top, _⟩ := Segment.mem_cells.mp inSeg
  rw [at_] at left_ top ⊢
  simp only [Nat.cast_le] at left_ top
  -- Any earlier cell is erased.
  have reached : ¬ (y.val < i ∨ (y.val = i ∧ x.val < j)) := fun early =>
    still (scanned.erased y x early)
  have sameRow : y.val = i := by omega
  have sameColumn : x.val = j := by omega
  rw [sameRow, sameColumn]

theorem Searching.cell (searching : Searching fleet f found left s) (fills : fleet.Fills f)
    {i j : Nat} (row : i < fldSz) (column : j < fldSz) (scanned : Scanned f i j s) :
    Comes False (fun next => j < next.1 ∧ Scanned f i next.1 next.2 ∧
      ∃ found left, Searching fleet f found left next.2) (scanCell past i j s) := by
  have passed := scanned.cell past row column
  unfold scanCell at *
  by_cases empty : readAt past s.tmp i j = CellState.empty.toCell
  · rw [if_pos empty] at passed ⊢
    exact ⟨passed.1, passed.2, found, left, searching⟩
  · rw [if_neg empty] at passed ⊢
    have taken : s.tmp.at' ⟨j, i⟩ ≠ 0 := by
      rw [← readAt_inside past s.tmp row column]
      exact empty
    obtain ⟨seg, inLeft, start⟩ := searching.next fills row column scanned taken
    have member := searching.mem.mpr (.inr inLeft)
    have sized := fleet.sized member
    have cells (cell : Point) (inSeg : cell ∈ seg.cells) : Inside cell ∧ s.tmp.at' cell ≠ 0 :=
      ⟨fleet.inside seg member cell inSeg, searching.untouched fills inLeft inSeg⟩
    obtain ⟨j', ship⟩ := scanShip_of_segment past s.tmp sized start cells
      (searching.lone fills inLeft)
    -- Seven ships are in the fleet and one is still to be found, so the array has room.
    have room : s.shipArr.length ≠ maxShipCount := by
      have seven : (found ++ left).length = maxShipCount := by
        rw [← searching.parts.length_eq, ← List.length_map (f := Segment.len),
          fleet.lengths.length_eq]
        rfl
      have more := List.length_pos_of_mem inLeft
      rw [List.length_append] at seven
      rw [searching.found.ships, List.length_map]
      omega
    rw [ship, Option.bind_some, if_neg room] at passed ⊢
    refine ⟨passed.1, passed.2, found ++ [seg], left.erase seg, ?_, searching.found.add sized cells⟩
    rw [List.append_assoc, List.singleton_append]
    exact searching.parts.trans ((List.perm_cons_erase inLeft).append_left found)

theorem valid_of_fleet (fills : fleet.Fills f) : f.isValidStartFieldWith past = true := by
  have searched : Comes False (fun s => Scanned f fldSz 0 s ∧
      ∃ found left, Searching fleet f found left s) (scanRows past fldSz 0 ⟨f, []⟩) :=
    scanRows_rule (fun i j s => Scanned f i j s ∧
        ∃ found left, Searching fleet f found left s)
      (fun i j s row column ⟨scanned, found, left, searching⟩ =>
        searching.cell past fills row column scanned)
      (fun i j s done ⟨scanned, parts⟩ => ⟨scanned.wrap done, parts⟩) fldSz 0 rfl
      ⟨scanned_start f, [], fleet.segments, .refl _, found_start f⟩
  cases scan : scanRows past fldSz 0 ⟨f, []⟩ with
  | none =>
      rw [scan] at searched
      exact searched.elim
  | some s =>
      rw [scan] at searched
      obtain ⟨scanned, found, left, searching⟩ := searched
      -- What was not found would still stand in the copy, which is empty at the end.
      have complete : left = [] := by
        rw [List.eq_nil_iff_forall_not_mem]
        intro seg inLeft
        have member := searching.mem.mpr (.inr inLeft)
        have start := Segment.start_mem (fleet.sized member).1
        obtain ⟨y, x, at_⟩ := inside_iff.mp (fleet.inside seg member _ start)
        have still := searching.untouched fills inLeft start
        rw [at_, at'_cell] at still
        exact still (scanned.erased y x (.inl y.isLt))
      have parts := searching.parts
      rw [complete, List.append_nil] at parts
      have lengths := (parts.map Segment.len).symm.trans fleet.lengths
      have seven : s.shipArr.length = maxShipCount := by
        rw [searching.found.ships, List.length_map, ← List.length_map (f := Segment.len),
          lengths.length_eq]
        rfl
      have lone : s.shipArr.all f.shipApart = true := by
        simp only [searching.found.ships, List.all_map, List.all_eq_true]
        intro seg inFound
        exact (shipApart_iff f (searching.found.sized seg inFound)).mpr
          (lone_of_fills fills (searching.mem.mpr (.inl inFound)))
      have right : rightFleet s.shipArr = true := by
        rw [searching.found.ships]
        exact (rightFleet_iff searching.found.sized).mpr lengths
      have cells : f.isCellValuesValid = true := by
        rw [isCellValuesValid, decide_eq_true_iff]
        intro y x
        rcases fills.values y x with empty | whole
        · rw [empty]
          decide
        · rw [whole]
          decide
      have some_ : f.isEmpty = false := by
        rw [isEmpty, decide_eq_false_iff_not]
        intro empty
        obtain ⟨seg, member, -⟩ := List.mem_map.mp (fleet.lengths.mem_iff.mpr (List.mem_cons_self))
        have start := Segment.start_mem (fleet.sized member).1
        obtain ⟨y, x, at_⟩ := inside_iff.mp (fleet.inside seg member _ start)
        have whole := fills.whole member start
        rw [at_, at'_cell, empty] at whole
        exact absurd whole (by decide)
      simp only [isValidStartFieldWith, isValidField, scan, seven, lone, right, cells, some_]
      simpa using fills.values

end Fleet

/-- The check of a start field accepts exactly the legal fleets, whatever is read past the
rows and columns. -/
theorem isValidStartField_iff (f : GameField) :
    f.isValidStartFieldWith past = true ↔ ∃ fleet : Fleet, fleet.Fills f :=
  ⟨fleet_of_valid past, fun ⟨_, fills⟩ => valid_of_fleet past fills⟩

end Scan

end Battleship.GameField
