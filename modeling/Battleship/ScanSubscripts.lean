import Battleship.FieldSubscripts

/-! Which fields the scan of `_is_valid_field` reads out of bounds. The scan cuts what is on
the field into runs, from left to right and row by row: a cell that is in no earlier run
starts one, along its row or, if it is alone there, down its column. A run that comes to the
edge is followed over it, unless the scan has given up before. -/
namespace Battleship.GameField

def Filled (f : GameField) (y x : Nat) : Prop := f.at' ⟨x, y⟩ ≠ 0

instance (f : GameField) (y : Nat) : DecidablePred (f.Filled y) :=
  fun _ => inferInstanceAs (Decidable (_ ≠ _))

def AloneIn (row : Nat → Prop) (x : Nat) : Prop := row x ∧ (x = 0 ∨ ¬row (x - 1)) ∧ ¬row (x + 1)

instance (row : Nat → Prop) [DecidablePred row] : DecidablePred (AloneIn row) :=
  fun _ => inferInstanceAs (Decidable (_ ∧ _))

def Above (f : GameField) : Nat → Nat → Prop
  | 0 => fun _ => False
  | y + 1 => fun x => f.Filled (y + 1) x ∧
      (f.Above y x ∨ AloneIn (fun x => f.Filled y x ∧ ¬f.Above y x) x)

instance decidableAbove (f : GameField) : ∀ y, DecidablePred (f.Above y)
  | 0 => fun _ => inferInstanceAs (Decidable False)
  | y + 1 =>
      have := decidableAbove f y
      fun x => inferInstanceAs (Decidable (f.Filled (y + 1) x ∧
        (f.Above y x ∨ AloneIn (fun x => f.Filled y x ∧ ¬f.Above y x) x)))

def Free (f : GameField) (y x : Nat) : Prop := f.Filled y x ∧ ¬f.Above y x

instance (f : GameField) (y : Nat) : DecidablePred (f.Free y) :=
  fun _ => inferInstanceAs (Decidable (_ ∧ _))

def Start (f : GameField) (y x : Nat) : Prop := f.Free y x ∧ (x = 0 ∨ ¬f.Free y (x - 1))

instance (f : GameField) (y : Nat) : DecidablePred (f.Start y) :=
  fun _ => inferInstanceAs (Decidable (_ ∧ _))

/-- The run that starts at the cell has all the cells up to `len` of them, along the row or
down the column. -/
def RunsOn (f : GameField) (y x : Nat) (right down : Nat) : Prop :=
  (∀ x', x ≤ x' → x' < right → f.Free y x') ∨
    AloneIn (f.Free y) x ∧ ∀ y', y ≤ y' → y' < down → f.Filled y' x

def Reaches (f : GameField) (y x : Nat) : Prop := f.RunsOn y x fldSz fldSz

def TooLong (f : GameField) (y x : Nat) : Prop := f.RunsOn y x (x + 6) (y + 6)

def earlier (f : GameField) (y x : Nat) : Finset (Nat × Nat) :=
  (Finset.range fldSz ×ˢ Finset.range fldSz).filter fun at_ =>
    f.Start at_.1 at_.2 ∧ (at_.1 < y ∨ at_.1 = y ∧ at_.2 < x)

/-- Every run that reaches the edge comes after one that is too long, or after eight others. -/
def EdgesUnread (f : GameField) : Prop :=
  ∀ y x, y < fldSz → x < fldSz → f.Start y x → f.Reaches y x →
    (∃ at_ ∈ f.earlier y x, f.TooLong at_.1 at_.2) ∨ maxShipCount < (f.earlier y x).card

theorem above_succ {f : GameField} {y x : Nat} :
    f.Above (y + 1) x ↔ f.Filled (y + 1) x ∧ (f.Above y x ∨ AloneIn (f.Free y) x) := Iff.rfl

theorem mem_earlier {f : GameField} {y x : Nat} {at_ : Nat × Nat} :
    at_ ∈ f.earlier y x ↔ (at_.1 < fldSz ∧ at_.2 < fldSz) ∧ f.Start at_.1 at_.2 ∧
      (at_.1 < y ∨ at_.1 = y ∧ at_.2 < x) := by
  rw [earlier, Finset.mem_filter, Finset.mem_product, Finset.mem_range, Finset.mem_range]

/-- The runs whose start is no cell from `x` up to `x'`. -/
theorem earlier_same {f : GameField} {y x x' : Nat} (low : x ≤ x')
    (none : ∀ k, x ≤ k → k < x' → ¬f.Start y k) : f.earlier y x' = f.earlier y x := by
  ext at_
  rw [mem_earlier, mem_earlier]
  refine and_congr_right fun _ => and_congr_right fun start => ?_
  constructor
  · rintro (row | ⟨row, before⟩)
    · exact .inl row
    · by_contra late
      have from_ : x ≤ at_.2 := by omega
      exact none at_.2 from_ before (row ▸ start)
  · rintro (row | ⟨row, before⟩)
    · exact .inl row
    · exact .inr ⟨row, by omega⟩

theorem earlier_next {f : GameField} {y x x' : Nat} (row : y < fldSz) (column : x < fldSz)
    (start : f.Start y x) (low : x < x') (none : ∀ k, x < k → k < x' → ¬f.Start y k) :
    f.earlier y x' = insert (y, x) (f.earlier y x) := by
  ext at_
  rw [Finset.mem_insert, mem_earlier, mem_earlier]
  constructor
  · rintro ⟨inside, starts, before⟩
    by_cases here : at_ = (y, x)
    · exact .inl here
    · refine .inr ⟨inside, starts, ?_⟩
      rcases before with above | ⟨same, less⟩
      · exact .inl above
      · refine .inr ⟨same, ?_⟩
        by_contra late
        have differs : at_.2 ≠ x := fun same' => here (Prod.ext same same')
        exact none at_.2 (by omega) less (same ▸ starts)
  · rintro (rfl | ⟨inside, starts, before⟩)
    · exact ⟨⟨row, column⟩, start, .inr ⟨rfl, low⟩⟩
    · exact ⟨inside, starts, by omega⟩

theorem notMem_earlier (f : GameField) (y x : Nat) : (y, x) ∉ f.earlier y x := by
  rw [mem_earlier]
  omega

theorem earlier_wrap {f : GameField} {y x : Nat} (edge : fldSz ≤ x) :
    f.earlier (y + 1) 0 = f.earlier y x := by
  ext at_
  rw [mem_earlier, mem_earlier]
  refine and_congr_right fun inside => and_congr_right fun _ => ?_
  omega

/-- At row `i`, column `j` the working copy has lost the runs that started before, all of
which were ships inside the field and are in the table. -/
structure Tracks (f : GameField) (i j : Nat) (s : ScanState) : Prop where
  row : i < fldSz → ∀ x : Nat, j ≤ x → x < fldSz → (s.tmp.at' ⟨x, i⟩ ≠ 0 ↔ f.Free i x)
  below : ∀ y x : Nat, i < y → y < fldSz → x < fldSz → (s.tmp.at' ⟨x, y⟩ ≠ 0 ↔
    f.Filled y x ∧ ¬((∀ r, i < r → r ≤ y → f.Filled r x) ∧
      (f.Above i x ∨ x < j ∧ AloneIn (f.Free i) x)))
  fresh : j = 0 ∨ ¬f.Free i (j - 1) ∨ ¬f.Free i j
  ships : s.shipArr.length = (f.earlier i j).card
  room : s.shipArr.length ≤ maxShipCount
  fits : ∀ at_ ∈ f.earlier i j, ¬f.TooLong at_.1 at_.2
  stays : ∀ at_ ∈ f.earlier i j, ¬f.Reaches at_.1 at_.2

theorem filled_inside {f : GameField} {y x : Nat} (filled : f.Filled y x) : y < fldSz ∧ x < fldSz := by
  by_contra outside
  refine filled (dif_neg ?_)
  unfold Inside
  simp only
  omega

theorem tracks_start (f : GameField) : Tracks f 0 0 ⟨f, []⟩ := by
  have none : f.earlier 0 0 = ∅ := by
    rw [Finset.eq_empty_iff_forall_notMem]
    intro at_ member
    rw [mem_earlier] at member
    omega
  constructor
  · intro _ x _ _
    exact (and_iff_left not_false).symm
  · intro y x _ _ _
    refine (and_iff_left ?_).symm
    rintro ⟨_, above | before⟩
    · exact above
    · exact Nat.not_lt_zero x before.1
  · exact .inl rfl
  · rw [none]
    rfl
  · exact Nat.zero_le _
  · intro at_ member
    rw [none] at member
    exact absurd member (Finset.notMem_empty at_)
  · intro at_ member
    rw [none] at member
    exact absurd member (Finset.notMem_empty at_)

theorem Tracks.wrap {f : GameField} {i j : Nat} {s : ScanState} (tracks : Tracks f i j s)
    (edge : fldSz ≤ j) : Tracks f (i + 1) 0 s := by
  have wrapped := earlier_wrap (f := f) (y := i) edge
  -- a run goes on down its column, whether it came from above or started in this row
  have down (x : Nat) (column : x < fldSz) :
      (f.Above i x ∨ x < j ∧ AloneIn (f.Free i) x) ↔ (f.Above i x ∨ AloneIn (f.Free i) x) :=
    or_congr_right (and_iff_right (Nat.lt_of_lt_of_le column edge))
  constructor
  · intro row x _ column
    rw [tracks.below (i + 1) x (Nat.lt_succ_self i) row column, down x column, Free, above_succ]
    refine and_congr_right fun filled => not_congr ?_
    refine and_congr_left fun _ => iff_of_true (fun r low high => ?_) filled
    obtain rfl : r = i + 1 := by omega
    exact filled
  · intro y x low row column
    rw [tracks.below y x (Nat.lt_of_succ_lt low) row column, down x column, above_succ]
    refine and_congr_right fun filled => not_congr ?_
    constructor
    · rintro ⟨all, vertical⟩
      refine ⟨fun r from_ => all r (Nat.lt_of_succ_lt from_), .inl ⟨?_, vertical⟩⟩
      exact all (i + 1) (Nat.lt_succ_self i) low.le
    · rintro ⟨all, ⟨next, vertical⟩ | ⟨before, _⟩⟩
      · refine ⟨fun r from_ upTo => ?_, vertical⟩
        rcases Nat.eq_or_lt_of_le (Nat.succ_le_of_lt from_) with rfl | later
        · exact next
        · exact all r later upTo
      · exact absurd before (Nat.not_lt_zero x)
  · exact .inl rfl
  · rw [wrapped]
    exact tracks.ships
  · exact tracks.room
  · rw [wrapped]
    exact tracks.fits
  · rw [wrapped]
    exact tracks.stays

theorem Tracks.skip {f : GameField} {i j : Nat} {s : ScanState} (tracks : Tracks f i j s)
    (row : i < fldSz) (column : j < fldSz) (empty : s.tmp.at' ⟨j, i⟩ = 0) :
    Tracks f i (j + 1) s := by
  have other : ¬f.Free i j := fun free => (tracks.row row j le_rfl column).mpr free empty
  have same : f.earlier i (j + 1) = f.earlier i j := by
    apply earlier_same (Nat.le_succ j)
    intro k low high start
    obtain rfl : k = j := by omega
    exact other start.1
  constructor
  · exact fun row x low => tracks.row row x (Nat.le_of_succ_le low)
  · intro y x low high column
    rw [tracks.below y x low high column]
    have alone : x < j + 1 ∧ AloneIn (f.Free i) x ↔ x < j ∧ AloneIn (f.Free i) x := by
      refine and_congr_left fun alone => ⟨fun less => ?_, Nat.lt_succ_of_lt⟩
      refine lt_of_le_of_ne (Nat.le_of_lt_succ less) ?_
      rintro rfl
      exact other alone.1
    rw [alone]
  · exact .inr (.inl other)
  · rw [same]
    exact tracks.ships
  · exact tracks.room
  · rw [same]
    exact tracks.fits
  · rw [same]
    exact tracks.stays

section Turn
variable {f : GameField} {i j : Nat} {s : ScanState}

theorem Tracks.free (tracks : Tracks f i j s) (row : i < fldSz) (column : j < fldSz)
    (taken : s.tmp.at' ⟨j, i⟩ ≠ 0) : f.Free i j :=
  (tracks.row row j le_rfl column).mp taken

theorem Tracks.start (tracks : Tracks f i j s) (row : i < fldSz) (column : j < fldSz)
    (taken : s.tmp.at' ⟨j, i⟩ ≠ 0) : f.Start i j := by
  have free := tracks.free row column taken
  refine ⟨free, tracks.fresh.imp_right fun either => either.resolve_right ?_⟩
  exact not_not_intro free

theorem Tracks.column (tracks : Tracks f i j s) (row : i < fldSz) (column : j < fldSz)
    (taken : s.tmp.at' ⟨j, i⟩ ≠ 0) {y : Nat} (low : i ≤ y) (high : y < fldSz) :
    s.tmp.at' ⟨j, y⟩ ≠ 0 ↔ f.Filled y j := by
  have free := tracks.free row column taken
  rcases Nat.eq_or_lt_of_le low with rfl | later
  · exact iff_of_true taken free.1
  · rw [tracks.below y j later high column]
    refine and_iff_left ?_
    rintro ⟨_, above | before⟩
    · exact free.2 above
    · exact Nat.lt_irrefl j before.1

theorem Tracks.next_empty (tracks : Tracks f i j s) (row : i < fldSz) :
    s.tmp.at' ⟨(j + 1 : Nat), i⟩ = 0 ↔ ¬f.Free i (j + 1) := by
  by_cases more : j + 1 < fldSz
  · rw [← tracks.row row (j + 1) (Nat.le_succ j) more, not_not]
  · refine iff_of_true (dif_neg ?_) fun free => more (filled_inside free.1).2
    unfold Inside
    simp only
    omega

theorem Tracks.alone (tracks : Tracks f i j s) (row : i < fldSz) (column : j < fldSz)
    (taken : s.tmp.at' ⟨j, i⟩ ≠ 0) :
    AloneIn (f.Free i) j ↔ s.tmp.at' ⟨(j + 1 : Nat), i⟩ = 0 := by
  obtain ⟨free, left⟩ := tracks.start row column taken
  rw [tracks.next_empty row]
  exact ⟨fun alone => alone.2.2, fun next => ⟨free, left, next⟩⟩

theorem Tracks.overruns_iff (tracks : Tracks f i j s) (row : i < fldSz) (column : j < fldSz)
    (taken : s.tmp.at' ⟨j, i⟩ ≠ 0) : Overruns s.tmp i j ↔ f.Reaches i j := by
  unfold Overruns Reaches RunsOn
  rw [tracks.alone row column taken]
  refine or_congr ?_ (and_congr_right fun _ => ?_)
  · exact forall₃_congr fun x low high => tracks.row row x low high
  · exact forall₃_congr fun y low high => tracks.column row column taken low high

end Turn

end Battleship.GameField
