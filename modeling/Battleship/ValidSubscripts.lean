import Battleship.ScanSubscripts

/-! The start-field check keeps its subscripts in range exactly when the scan gives up before
it comes to a run that reaches the edge of the field, or there is none. -/
namespace Battleship.GameField

open Runs

/-- The cells go on up to `m` exactly when the run has not stopped before. -/
theorem runs_iff {goes : Nat → Prop} {k stop m : Nat} (low : k ≤ stop)
    (all : ∀ x, k ≤ x → x < stop → goes x) (ends : ¬goes stop) :
    (∀ x, k ≤ x → x < m → goes x) ↔ m ≤ stop := by
  constructor
  · intro upTo
    by_contra beyond
    exact ends (upTo stop low (Nat.not_le.mp beyond))
  · exact fun high x from_ below => all x from_ (Nat.lt_of_lt_of_le below high)

/-- The first empty cell stops the loop, if there is one before the edge. -/
theorem runEnd_stops {goes : Nat → Prop} [DecidablePred goes] {value : Nat → Cell}
    (same : ∀ x, goes x ↔ value x ≠ 0 ∧ x < fldSz) {k : Nat}
    (part : ¬∀ x, k ≤ x → x < fldSz → value x ≠ 0) :
    runEnd goes fldSz k < fldSz ∧ value (runEnd goes fldSz k) = 0 := by
  obtain ⟨_, all, stops⟩ := runEnd_spec goes fldSz k
  have inside : runEnd goes fldSz k < fldSz := by
    by_contra beyond
    apply part
    intro x from_ below
    have before : x < runEnd goes fldSz k := Nat.lt_of_lt_of_le below (Nat.not_lt.mp beyond)
    exact ((same x).mp (all x from_ before)).1
  refine ⟨inside, ?_⟩
  by_contra other
  apply stops (Nat.lt_of_lt_of_le inside (Nat.le_add_left ..))
  exact (same _).mpr ⟨other, inside⟩

section Stop
variable (past : Nat → Nat → Cell)

theorem rowEnd_stops (tmp : GameField) {i j : Nat} (row : i < fldSz) (part : ¬RowFull tmp i j) :
    rowEnd past tmp i fldSz j < fldSz ∧
      tmp.at' ⟨(rowEnd past tmp i fldSz j : Nat), i⟩ = 0 := by
  rw [rowEnd_eq_runEnd]
  refine runEnd_stops (fun x => and_congr_left fun column => ?_) part
  rw [readAt_inside past tmp row column]
  rfl

theorem columnEnd_stops (tmp : GameField) {i j : Nat} (column : j < fldSz)
    (part : ¬ColumnFull tmp i j) :
    columnEnd past tmp j fldSz i < fldSz ∧
      tmp.at' ⟨j, (columnEnd past tmp j fldSz i : Nat)⟩ = 0 := by
  rw [columnEnd_eq_runEnd]
  refine runEnd_stops (fun y => and_congr_left fun row => ?_) part
  rw [readAt_inside past tmp row column]
  rfl

end Stop

/-- The run at the cell ends before column `right` of its row, and if it is one cell there
before row `bottom` of its column. -/
structure StopsAt (f : GameField) (i j right bottom : Nat) : Prop where
  start : f.Start i j
  across : j < right
  inRow : ∀ x, j ≤ x → x < right → f.Free i x
  rowEnds : ¬f.Free i right
  down : i < bottom
  inColumn : right = j + 1 → ∀ y, i ≤ y → y < bottom → f.Filled y j
  columnEnds : right = j + 1 → ¬f.Filled bottom j

section Turn
variable {f : GameField} {i j right bottom : Nat}

theorem StopsAt.alone_iff (run : StopsAt f i j right bottom) :
    AloneIn (f.Free i) j ↔ right = j + 1 := by
  constructor
  · intro alone
    by_contra several
    have across := run.across
    exact alone.2.2 (run.inRow (j + 1) (Nat.le_succ j) (by omega))
  · intro single
    exact ⟨run.start.1, run.start.2, single ▸ run.rowEnds⟩

theorem StopsAt.tooLong_iff (run : StopsAt f i j right bottom) :
    f.TooLong i j ↔ if right = j + 1 then 5 < bottom - i else 5 < right - j := by
  have across := run.across
  have down := run.down
  unfold TooLong RunsOn
  rw [run.alone_iff, runs_iff across.le run.inRow run.rowEnds]
  split_ifs with single
  · rw [runs_iff down.le (run.inColumn single) (run.columnEnds single)]
    omega
  · omega

theorem StopsAt.no_start (run : StopsAt f i j right bottom) {k : Nat} (low : j < k)
    (high : k < right) : ¬f.Start i k := by
  rintro ⟨_, first | before⟩
  · omega
  · exact before (run.inRow (k - 1) (by omega) (by omega))

theorem StopsAt.earlier (run : StopsAt f i j right bottom) :
    f.earlier i right = insert (i, j) (f.earlier i j) := by
  obtain ⟨row, column⟩ := filled_inside run.start.1.1
  exact earlier_next row column run.start run.across fun k low high => run.no_start low high

/-- Down its column the cells go on up to `bottom`. -/
theorem StopsAt.column_iff (run : StopsAt f i j right bottom) (single : right = j + 1) {y : Nat} :
    (∀ r, i < r → r ≤ y → f.Filled r j) ↔ y < bottom := by
  have upTo := runs_iff (m := y + 1) run.down.le (run.inColumn single) (run.columnEnds single)
  refine Iff.trans ⟨fun all r from_ below => ?_, fun all r from_ below => ?_⟩ upTo
  · rcases Nat.eq_or_lt_of_le from_ with rfl | later
    · exact run.start.1.1
    · exact all r later (Nat.le_of_lt_succ below)
  · exact all r from_.le (Nat.lt_succ_of_le below)

theorem StopsAt.alone_before (run : StopsAt f i j right bottom) (several : right ≠ j + 1) {x : Nat} :
    x < right ∧ AloneIn (f.Free i) x ↔ x < j ∧ AloneIn (f.Free i) x := by
  have across := run.across
  refine and_congr_left fun alone => ⟨fun high => ?_, fun high => high.trans across⟩
  by_contra from_
  rcases Nat.lt_or_ge (x + 1) right with more | last
  · exact alone.2.2 (run.inRow (x + 1) (by omega) more)
  · rcases alone.2.1 with first | left
    · omega
    · exact left (run.inRow (x - 1) (by omega) (by omega))

end Turn

section Found
variable (past : Nat → Nat → Cell) {f : GameField} {i j : Nat} {s : ScanState}

theorem Tracks.stopsAt (tracks : Tracks f i j s) (row : i < fldSz) (column : j < fldSz)
    (taken : s.tmp.at' ⟨j, i⟩ ≠ 0) (stays : ¬Overruns s.tmp i j) :
    StopsAt f i j (rowEnd past s.tmp i fldSz j) (columnEnd past s.tmp j fldSz i) := by
  have read : readAt past s.tmp i j ≠ 0 := by
    rw [readAt_inside past s.tmp row column]
    exact taken
  obtain ⟨_, _, rowCells⟩ := rowEnd_spec past s.tmp row fldSz j column.le
  obtain ⟨_, high, columnCells⟩ := columnEnd_spec past s.tmp column fldSz i row.le
  obtain ⟨inside, empty⟩ := rowEnd_stops past s.tmp row fun full => stays (.inl full)
  have across := rowEnd_moves past s.tmp column read
  constructor
  · exact tracks.start row column taken
  · exact across
  · intro x low below
    exact (tracks.row row x low (Nat.lt_trans below inside)).mp (rowCells x low below)
  · intro free
    exact (tracks.row row _ across.le inside).mpr free empty
  · exact columnEnd_moves past s.tmp row read
  · intro _ y low below
    exact (tracks.column row column taken low (Nat.lt_of_lt_of_le below high)).mp
      (columnCells y low below)
  · intro single
    have alone := (rowEnd_alone past s.tmp row column taken).mp single
    obtain ⟨inside', empty'⟩ := columnEnd_stops past s.tmp column fun full =>
      stays (.inr ⟨alone, full⟩)
    intro filled
    refine (tracks.column row column taken ?_ inside').mpr filled empty'
    exact (columnEnd_moves past s.tmp row read).le

theorem Tracks.tooLong_iff (tracks : Tracks f i j s) (row : i < fldSz) (column : j < fldSz)
    (taken : s.tmp.at' ⟨j, i⟩ ≠ 0) (stays : ¬Overruns s.tmp i j) :
    f.TooLong i j ↔ ¬(foundSegment past s.tmp i j).len ≤ 5 := by
  have run := tracks.stopsAt past row column taken stays
  have across := run.across
  rw [run.tooLong_iff, foundSegment]
  split_ifs with single several
  · exact Nat.not_le.symm
  · exact absurd (by omega) several
  · exact absurd (by omega) single
  · exact Nat.not_le.symm

theorem mem_foundSegment {tmp : GameField} (across : j < rowEnd past tmp i fldSz j)
    (down : i < columnEnd past tmp j fldSz i) {x y : Nat} :
    (⟨x, y⟩ : Point) ∈ (foundSegment past tmp i j).cells ↔
      if rowEnd past tmp i fldSz j = j + 1 then x = j ∧ i ≤ y ∧ y < columnEnd past tmp j fldSz i
      else y = i ∧ j ≤ x ∧ x < rowEnd past tmp i fldSz j := by
  unfold foundSegment
  dsimp only
  split_ifs with single several
  · rw [Segment.mem_vertical]
    simp only
    omega
  · omega
  · omega
  · rw [Segment.mem_horizontal]
    simp only
    omega

theorem Tracks.below_found (tracks : Tracks f i j s) {right bottom : Nat}
    (run : StopsAt f i j right bottom) (taken : s.tmp.at' ⟨j, i⟩ ≠ 0) {x y : Nat} (low : i < y)
    (row : y < fldSz) (column : x < fldSz) :
    (¬(if right = j + 1 then x = j ∧ i ≤ y ∧ y < bottom else y = i ∧ j ≤ x ∧ x < right) ∧
        s.tmp.at' ⟨x, y⟩ ≠ 0) ↔
      f.Filled y x ∧ ¬((∀ r, i < r → r ≤ y → f.Filled r x) ∧
        (f.Above i x ∨ x < right ∧ AloneIn (f.Free i) x)) := by
  have across := run.across
  obtain ⟨here, inside⟩ := filled_inside run.start.1.1
  split_ifs with single
  · by_cases same : x = j
    · -- the column of the ship: it is erased down to `bottom`
      subst same
      have alone := run.alone_iff.mpr single
      rw [tracks.column here inside taken low.le row, run.column_iff single, and_comm]
      refine and_congr_right fun _ => not_congr ?_
      constructor
      · rintro ⟨_, _, high⟩
        exact ⟨high, .inr ⟨by omega, alone⟩⟩
      · rintro ⟨high, _⟩
        exact ⟨rfl, low.le, high⟩
    · have before : x < right ↔ x < j := by omega
      rw [before, tracks.below y x low row column]
      exact and_iff_right fun ship => same ship.1
  · rw [and_iff_right fun ship => low.ne' ship.1, tracks.below y x low row column,
      run.alone_before single]

theorem Tracks.found (tracks : Tracks f i j s) (row : i < fldSz) (column : j < fldSz)
    (taken : s.tmp.at' ⟨j, i⟩ ≠ 0) (stays : ¬Overruns s.tmp i j)
    (fits : (foundSegment past s.tmp i j).len ≤ 5) (room : s.shipArr.length ≠ maxShipCount) :
    Tracks f i (rowEnd past s.tmp i fldSz j)
      ⟨removeShip (foundSegment past s.tmp i j).ship s.tmp,
        s.shipArr ++ [(foundSegment past s.tmp i j).ship]⟩ := by
  have run := tracks.stopsAt past row column taken stays
  have read : readAt past s.tmp i j ≠ 0 := by
    rw [readAt_inside past s.tmp row column]
    exact taken
  have sized : (foundSegment past s.tmp i j).Sized :=
    ⟨foundSegment_long past s.tmp row column read, fits⟩
  have erased (x y : Nat) := removeShip_segment s.tmp sized
    (fun cell member => (foundSegment_taken past s.tmp row column cell member).1) ⟨x, y⟩
  have left (x y : Nat) : (removeShip (foundSegment past s.tmp i j).ship s.tmp).at' ⟨x, y⟩ ≠ 0 ↔
      ¬((⟨x, y⟩ : Point) ∈ (foundSegment past s.tmp i j).cells) ∧ s.tmp.at' ⟨x, y⟩ ≠ 0 := by
    rw [erased]
    split_ifs with member
    · exact iff_of_false (fun other => other rfl) fun both => both.1 member
    · exact (and_iff_right member).symm
  have across := run.across
  constructor
  · intro row x low high
    rw [left, mem_foundSegment past across run.down, tracks.row row x (across.le.trans low) high]
    refine and_iff_right fun ship => ?_
    split_ifs at ship <;> omega
  · intro y x low high inside
    rw [left, mem_foundSegment past across run.down]
    exact tracks.below_found run taken low high inside
  · exact .inr (.inr run.rowEnds)
  · rw [run.earlier, Finset.card_insert_of_notMem (notMem_earlier f i j), List.length_append,
      tracks.ships]
    rfl
  · rw [List.length_append]
    exact Nat.succ_le_of_lt (lt_of_le_of_ne tracks.room room)
  · rw [run.earlier, Finset.forall_mem_insert]
    exact ⟨fun long => (tracks.tooLong_iff past row column taken stays).mp long fits, tracks.fits⟩
  · rw [run.earlier, Finset.forall_mem_insert]
    exact ⟨fun edge => stays ((tracks.overruns_iff row column taken).mpr edge), tracks.stays⟩

end Found

/-- A run that starts comes before the later ones, together with all before it. -/
theorem insert_earlier_subset {f : GameField} {i j y x : Nat} (start : f.Start i j)
    (later : i < y ∨ i = y ∧ j < x) : insert (i, j) (f.earlier i j) ⊆ f.earlier y x := by
  rw [Finset.insert_subset_iff]
  constructor
  · exact mem_earlier.mpr ⟨filled_inside start.1.1, start, later⟩
  · intro at_ member
    obtain ⟨inside, starts, before⟩ := mem_earlier.mp member
    exact mem_earlier.mpr ⟨inside, starts, by omega⟩

/-- No run up to this one reaches the edge, and with it there are enough for every later one
to stay unread. -/
theorem edgesUnread_of {f : GameField} {i j : Nat} (start : f.Start i j) (stay : ¬f.Reaches i j)
    (stays : ∀ at_ ∈ f.earlier i j, ¬f.Reaches at_.1 at_.2)
    (enough : ∀ y x, insert (i, j) (f.earlier i j) ⊆ f.earlier y x →
      (∃ at_ ∈ f.earlier y x, f.TooLong at_.1 at_.2) ∨ maxShipCount < (f.earlier y x).card) :
    f.EdgesUnread := by
  intro y x row column start' reaches
  by_cases later : i < y ∨ i = y ∧ j < x
  · apply enough
    exact insert_earlier_subset start later
  by_cases here : y = i ∧ x = j
  · obtain ⟨rfl, rfl⟩ := here
    exact absurd reaches stay
  · have sooner : y < i ∨ y = i ∧ x < j := by omega
    have member : (y, x) ∈ f.earlier i j := mem_earlier.mpr ⟨⟨row, column⟩, start', sooner⟩
    exact absurd reaches (stays (y, x) member)

section GiveUp
variable {f : GameField} {i j : Nat} {s : ScanState}

theorem Tracks.gives_up_long (tracks : Tracks f i j s) (start : f.Start i j)
    (stay : ¬f.Reaches i j) (long : f.TooLong i j) : f.EdgesUnread := by
  apply edgesUnread_of start stay tracks.stays
  intro y x more
  exact .inl ⟨(i, j), more (Finset.mem_insert_self ..), long⟩

theorem Tracks.gives_up_excess (tracks : Tracks f i j s) (start : f.Start i j)
    (stay : ¬f.Reaches i j) (excess : s.shipArr.length = maxShipCount) : f.EdgesUnread := by
  apply edgesUnread_of start stay tracks.stays
  intro y x more
  right
  have card := Finset.card_le_card more
  rw [Finset.card_insert_of_notMem (notMem_earlier f i j), ← tracks.ships, excess] at card
  exact card

theorem Tracks.comes_to (tracks : Tracks f i j s) (start : f.Start i j) (edge : f.Reaches i j) :
    ¬f.EdgesUnread := by
  intro unread
  obtain ⟨row, column⟩ := filled_inside start.1.1
  rcases unread i j row column start edge with ⟨at_, member, long⟩ | many
  · exact tracks.fits at_ member long
  · rw [← tracks.ships] at many
    exact Nat.not_lt.mpr tracks.room many

theorem Tracks.all_read (tracks : Tracks f fldSz 0 s) : f.EdgesUnread := by
  intro y x row column start reaches
  exact absurd reaches (tracks.stays (y, x) (mem_earlier.mpr ⟨⟨row, column⟩, start, .inl row⟩))

end GiveUp

section Scans
variable {α β : Type} {P : Prop} {fact : α → Prop} {fact' : β → Prop}

/-- The checked part faults, which it does only where `P` fails, or it is the unchecked one. -/
def Scans (P : Prop) (fact : α → Prop) (checked : Except IndexFault (Option α))
    (plain : Option α) : Prop :=
  (¬P ∧ ∃ fault, BehindEdge fault ∧ checked = .error fault) ∨
    (checked = .ok plain ∧ Comes P fact plain)

theorem Scans.bind {checked : Except IndexFault (Option α)} {plain : Option α}
    (first : Scans P fact checked plain) {next : Option α → Except IndexFault (Option β)}
    {next' : α → Option β} (stop : next none = .ok none)
    (go : ∀ a, fact a → Scans P fact' (next (some a)) (next' a)) :
    Scans P fact' (checked >>= next) (plain.bind next') := by
  rcases first with ⟨fails, fault, behind, reads⟩ | ⟨same, comes⟩
  · rw [reads]
    exact .inl ⟨fails, fault, behind, rfl⟩
  · rw [same]
    cases plain with
    | none => exact .inr ⟨stop, comes⟩
    | some a => exact go a comes

end Scans

section Turns
variable (past : Nat → Nat → Cell) {f : GameField} {i j turns : Nat} {s : ScanState}

theorem Tracks.scanCell (tracks : Tracks f i j s) (row : i < fldSz) (column : j < fldSz)
    (wide : fldSz < turns) :
    Scans f.EdgesUnread (fun next => j < next.1 ∧ Tracks f i next.1 next.2)
      (Checked.scanCell turns i j s) (GameField.scanCell past i j s) := by
  rcases Checked.scanCell_cases past s row column wide tracks.room with
    ⟨taken, overruns, fault⟩ | ⟨stays, same⟩
  · refine .inl ⟨tracks.comes_to (tracks.start row column taken) ?_, fault⟩
    exact (tracks.overruns_iff row column taken).mp overruns
  · refine .inr ⟨same, ?_⟩
    have read := readAt_inside past s.tmp row column
    unfold GameField.scanCell
    by_cases empty : s.tmp.at' ⟨j, i⟩ = CellState.empty.toCell
    · rw [read, if_pos empty]
      exact ⟨Nat.lt_succ_self j, tracks.skip row column empty⟩
    · have stays : ¬Overruns s.tmp i j := fun overruns => stays ⟨empty, overruns⟩
      have start := tracks.start row column empty
      have stay : ¬f.Reaches i j := fun edge =>
        stays ((tracks.overruns_iff row column empty).mpr edge)
      have taken : readAt past s.tmp i j ≠ 0 := by
        rw [read]
        exact empty
      rw [read, if_neg empty, scanShip_eq past s.tmp row column taken]
      by_cases fits : (foundSegment past s.tmp i j).len ≤ 5
      · rw [if_pos fits, Option.bind_some]
        by_cases excess : s.shipArr.length = maxShipCount
        · rw [if_pos excess]
          exact tracks.gives_up_excess start stay excess
        · rw [if_neg excess]
          have moves := rowEnd_moves past s.tmp column taken
          have behind : rowEnd past s.tmp i fldSz j - 1 + 1 = rowEnd past s.tmp i fldSz j := by
            omega
          simp only [Comes, behind]
          exact ⟨moves, tracks.found past row column empty stays fits excess⟩
      · rw [if_neg fits]
        exact tracks.gives_up_long start stay
          ((tracks.tooLong_iff past row column empty stays).mpr fits)

theorem Tracks.scanRow (row : i < fldSz) (wide : fldSz < turns) {left fuel : Nat}
    (tracks : Tracks f i j s) (enough : fldSz - j < left) (enough' : fldSz ≤ j + fuel) :
    Scans f.EdgesUnread (Tracks f (i + 1) 0) (Checked.scanRow turns i left j s)
      (GameField.scanRow past i fuel j s) := by
  induction left generalizing fuel j s with
  | zero => exact absurd enough (Nat.not_lt_zero _)
  | succ left ih =>
      rw [Checked.scanRow]
      by_cases column : j < fldSz
      · obtain ⟨fuel, rfl⟩ := exists_turn (show 0 < fuel by omega)
        rw [if_pos column, scanRow_succ, if_pos column]
        refine Scans.bind (tracks.scanCell past row column wide) rfl ?_
        rintro ⟨j', s'⟩ ⟨moves, tracks'⟩
        simp only at moves
        exact ih tracks' (by omega) (by omega)
      · have done : GameField.scanRow past i fuel j s = some s := by
          cases fuel with
          | zero => rfl
          | succ fuel => rw [scanRow_succ, if_neg column]
        rw [if_neg column, done]
        exact .inr ⟨rfl, tracks.wrap (Nat.not_lt.mp column)⟩

theorem Tracks.scanRows (wide : fldSz < turns) {left rows : Nat} (tracks : Tracks f i 0 s)
    (enough : rows < left) (last : i + rows = fldSz) :
    Scans f.EdgesUnread (Tracks f fldSz 0) (Checked.scanRows turns left i s)
      (GameField.scanRows past rows i s) := by
  induction rows generalizing left i s with
  | zero =>
      obtain ⟨left, rfl⟩ := exists_turn (show 0 < left by omega)
      obtain rfl : i = fldSz := by omega
      rw [Checked.scanRows, if_neg (Nat.lt_irrefl fldSz)]
      exact .inr ⟨rfl, tracks⟩
  | succ rows ih =>
      obtain ⟨left, rfl⟩ := exists_turn (show 0 < left by omega)
      have row : i < fldSz := by omega
      rw [Checked.scanRows, if_pos row, GameField.scanRows]
      refine Scans.bind (tracks.scanRow past row wide ?_ ?_) rfl fun s' tracks' => ?_
      · exact wide
      · exact le_rfl
      · exact ih tracks' (by omega) (by omega)

end Turns

/-- The check does not come to a run that reaches the edge of the field. -/
def NoEdgeRead (f : GameField) : Prop := f.isCellValuesValid = true → f.EdgesUnread

theorem noEdgeRead_of_empty {f : GameField} (empty : f.isEmpty = true) : f.NoEdgeRead := by
  intro _ y x row column start _
  have water : ∀ y x, f.field y x = CellState.empty.toCell := of_decide_eq_true empty
  have here := water ⟨y, row⟩ ⟨x, column⟩
  rw [← at'_cell] at here
  exact absurd here start.1.1

theorem ok_iff_of_cases {P : Prop} {checked : Except IndexFault Bool} {plain : Bool}
    (cases : (¬P ∧ ∃ fault, BehindEdge fault ∧ checked = .error fault) ∨ (P ∧ checked = .ok plain)) :
    (∃ answer, checked = .ok answer) ↔ P := by
  rcases cases with ⟨fails, fault, _, stops⟩ | ⟨holds, same⟩
  · refine iff_of_false ?_ fails
    rintro ⟨answer, done⟩
    rw [stops] at done
    contradiction
  · exact iff_of_true ⟨plain, same⟩ holds

section Check
variable (past : Nat → Nat → Cell) (f : GameField) {turns : Nat}

theorem Checked.isValidField_cases (wide : fldSz < turns) :
    (¬f.NoEdgeRead ∧ ∃ fault, BehindEdge fault ∧ Checked.isValidField f turns = .error fault) ∨
      (f.NoEdgeRead ∧ Checked.isValidField f turns = .ok (f.isValidField past)) := by
  have scan := (tracks_start f).scanRows past wide wide (Nat.zero_add fldSz)
  unfold Checked.isValidField GameField.isValidField NoEdgeRead
  rw [Checked.isCellValuesValid_eq f wide]
  simp only [Bind.bind, Except.bind]
  cases f.isCellValuesValid with
  | false => exact .inr ⟨fun known => absurd known Bool.false_ne_true, rfl⟩
  | true =>
      rw [Bool.not_true, if_neg Bool.false_ne_true]
      rcases scan with ⟨reads, fault, behind, stops⟩ | ⟨same, comes⟩
      · rw [stops]
        exact .inl ⟨fun unread => reads (unread rfl), fault, behind, rfl⟩
      · rw [same]
        cases scanned : GameField.scanRows past fldSz 0 ⟨f, []⟩ with
        | none =>
            rw [scanned] at comes
            exact .inr ⟨fun _ => comes, rfl⟩
        | some s =>
            rw [scanned] at comes
            refine .inr ⟨fun _ => Tracks.all_read comes, ?_⟩
            have room : s.shipArr.length < turns :=
              Nat.lt_of_le_of_lt comes.room (Nat.lt_trans (by decide) wide)
            have apart := Checked.allShips_eq f.shipApart
              (Checked.shipApart_eq f (Nat.lt_trans (by decide) wide))
              (show s.shipArr.length - 0 < turns from room)
            dsimp only
            rw [Checked.rightFleet_eq room, apart, List.drop_zero]
            by_cases count : s.shipArr.length = maxShipCount
            · cases GameField.rightFleet s.shipArr <;> simp [count]
            · simp [count]

theorem Checked.isValidStartField_cases (wide : fldSz < turns) :
    (¬f.NoEdgeRead ∧
        ∃ fault, BehindEdge fault ∧ Checked.isValidStartField f turns = .error fault) ∨
      (f.NoEdgeRead ∧ Checked.isValidStartField f turns = .ok (f.isValidStartFieldWith past)) := by
  unfold Checked.isValidStartField GameField.isValidStartFieldWith
  rw [Checked.isEmpty_eq f wide]
  simp only [Bind.bind, Except.bind]
  cases empty : f.isEmpty with
  | true => exact .inr ⟨noEdgeRead_of_empty empty, rfl⟩
  | false =>
      rw [if_neg Bool.false_ne_true, Bool.not_false, Bool.true_and]
      rcases Checked.isValidField_cases past f wide with ⟨reads, fault, behind, stops⟩ | ⟨unread, same⟩
      · rw [stops]
        exact .inl ⟨reads, fault, behind, rfl⟩
      · rw [same]
        refine .inr ⟨unread, ?_⟩
        cases f.isValidField past with
        | false => rfl
        | true =>
            obtain ⟨answer, done, all⟩ := Checked.allCells_zero f (fun cell => decide
              (cell = CellState.empty.toCell ∨ cell = CellState.unharmed.toCell)) wide
            dsimp only
            rw [Bool.not_true, if_neg Bool.false_ne_true, done, Bool.true_and]
            congr 1
            rw [Bool.eq_iff_iff, all, decide_eq_true_eq]
            simp only [decide_eq_true_eq]

end Check

/-- The check keeps its subscripts in range exactly when the cell values are wrong or no run is
come to that reaches the edge. Its answer is then that of the unchecked one, and else it reads
the cell behind a row or a column. -/
theorem validation_subscripts (f : GameField) {turns : Nat} (wide : fldSz < turns) :
    ((∃ answer, Checked.isValidStartField f turns = .ok answer) ↔ f.NoEdgeRead) ∧
      ((∃ answer, Checked.isValidField f turns = .ok answer) ↔ f.NoEdgeRead) ∧
      (∀ past answer, Checked.isValidStartField f turns = .ok answer →
        answer = f.isValidStartFieldWith past) ∧
      (¬f.NoEdgeRead →
        ∃ fault, BehindEdge fault ∧ Checked.isValidStartField f turns = .error fault) := by
  have valid := Checked.isValidField_cases (fun _ _ => 0) f wide
  have start (past : Nat → Nat → Cell) := Checked.isValidStartField_cases past f wide
  refine ⟨ok_iff_of_cases (start fun _ _ => 0), ok_iff_of_cases valid, ?_, ?_⟩
  · intro past answer done
    rcases start past with ⟨_, fault, _, stops⟩ | ⟨_, same⟩
    · rw [stops] at done
      contradiction
    · rw [same] at done
      exact (Except.ok.inj done).symm
  · intro reads
    rcases start fun _ _ => 0 with ⟨_, fault⟩ | ⟨unread, _⟩
    · exact fault
    · exact absurd unread reads

theorem filled_iff {f : GameField} (y x : Fin fldSz) : f.Filled y x ↔ f.field y x ≠ 0 := by
  rw [← at'_cell]
  rfl

/-- With the last row and the last column empty no run reaches the edge. -/
theorem noEdgeRead_of_margin {f : GameField} (right : ∀ y, f.field y 9 = 0)
    (bottom : ∀ x, f.field 9 x = 0) : f.NoEdgeRead := by
  rintro _ y x row column _ (across | ⟨_, down⟩)
  · have taken := (across 9 (Nat.le_of_lt_succ column) (by decide)).1
    exact absurd (right ⟨y, row⟩) ((filled_iff ⟨y, row⟩ 9).mp taken)
  · have taken := down 9 (Nat.le_of_lt_succ row) (by decide)
    exact absurd (bottom ⟨x, column⟩) ((filled_iff 9 ⟨x, column⟩).mp taken)

/-- A fleet that keeps clear of them. -/
def clearField : GameField where
  field y x :=
    if y.val = 1 ∧ x.val ∉ [0, 6, 9] ∨ y.val = 3 ∧ x.val ∉ [0, 5, 8, 9] ∨
        y.val = 5 ∧ x.val ∈ [1, 2, 3, 5, 7]
    then 1 else 0

theorem validation_subscripts_clear :
    clearField.isValidStartField = true ∧
      ∃ answer, Checked.isValidStartField clearField 11 = .ok answer := by
  refine ⟨by decide +kernel, (validation_subscripts clearField (by decide)).1.mpr ?_⟩
  apply noEdgeRead_of_margin
  · decide
  · decide

/-- The ship on the right of the first row is followed into `tmp[0][10]`. -/
theorem validation_reads_behind_row :
    openingField.isValidStartField = true ∧
      Checked.isValidStartField openingField 11 = .error (.field 0 10) ∧
      ¬∀ (f : GameField) (turns : Nat), fldSz < turns →
        ∃ answer, Checked.isValidStartField f turns = .ok answer := by
  have fault : Checked.isValidStartField openingField 11 = .error (.field 0 10) := by decide +kernel
  refine ⟨by decide +kernel, fault, fun always => ?_⟩
  obtain ⟨answer, done⟩ := always openingField 11 (by decide)
  rw [fault] at done
  contradiction

end Battleship.GameField
