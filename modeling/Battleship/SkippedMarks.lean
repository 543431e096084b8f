import Battleship.Draining

/-! Skipping to the next message, position by position. The search for a header goes from
mark to mark, but behind an invalid type it goes on five bytes further: the marks among
these bytes are not looked at. -/
namespace Battleship

def MarkAt (buf : List UInt8) (p : Nat) : Prop := buf[p]? = some startMark

def StartAt (buf : List UInt8) (p : Nat) : Prop :=
  MarkAt buf p ∧ (buf.length - p < minSize ∨ (getType (buf.drop p)).isSome)

instance (buf : List UInt8) (p : Nat) : Decidable (MarkAt buf p) :=
  inferInstanceAs (Decidable (_ = _))

instance (buf : List UInt8) (p : Nat) : Decidable (StartAt buf p) :=
  inferInstanceAs (Decidable (_ ∧ _))

/-- The first mark that is not before `start`. -/
def FirstMark (buf : List UInt8) (start p : Nat) : Prop :=
  IsLeast {q | start ≤ q ∧ MarkAt buf q} p

/-- The marks from `start` on, counting after each the next one at least a header further. -/
inductive Counted (buf : List UInt8) : Nat → Nat → Prop where
  | here {start p : Nat} (first : FirstMark buf start p) : Counted buf start p
  | later {start p q : Nat} (first : FirstMark buf start p) (rest : Counted buf (p + minSize) q) :
      Counted buf start q

theorem hasStartMark_drop {buf : List UInt8} {p : Nat} :
    hasStartMark (buf.drop p) = true ↔ MarkAt buf p := by
  rw [hasStartMark, List.head?_drop]
  exact decide_eq_true_iff

theorem MarkAt.inside {buf : List UInt8} {p : Nat} (mark : MarkAt buf p) : p < buf.length :=
  (List.getElem?_eq_some_iff.mp mark).1

theorem startAt_iff {buf : List UInt8} {p : Nat} (mark : MarkAt buf p) :
    StartAt buf p ↔ getMsgType (buf.drop p) ≠ .invalid := by
  rw [StartAt, and_iff_right mark, ← List.length_drop, ← getMsgType_undefined]
  cases found : getMsgType (buf.drop p) with
  | undefined => simp
  | invalid =>
      have unknown : ¬ ∃ type, getType (buf.drop p) = some type := by
        rintro ⟨type, known⟩
        rw [getMsgType_known.mpr known] at found
        cases found
      simpa [Option.isSome_iff_exists] using unknown
  | known type => simp [getMsgType_known.mp found]

/-- The inner loop of the search: it stops at the first mark or drops everything. -/
theorem dropWhile_drop (buf : List UInt8) (start : Nat) :
    ((∃ p, FirstMark buf start p ∧ (buf.drop start).dropWhile (· ≠ startMark) = buf.drop p) ∨
      (∀ p, start ≤ p → ¬ MarkAt buf p) ∧ (buf.drop start).dropWhile (· ≠ startMark) = []) := by
  induction left : buf.length - start generalizing start with
  | zero =>
      right
      rw [List.drop_eq_nil_of_le (by omega)]
      refine ⟨fun p late mark => ?_, rfl⟩
      have inside := mark.inside
      omega
  | succ left ih =>
      have inside : start < buf.length := by omega
      have split := List.drop_eq_getElem_cons inside
      by_cases mark : buf[start] = startMark
      · left
        refine ⟨start, ⟨⟨le_rfl, ?_⟩, fun q later => later.1⟩, ?_⟩
        · exact (List.getElem?_eq_getElem inside).trans (congrArg some mark)
        · rw [split, List.dropWhile_cons_of_neg (by simpa using mark)]
      · have before {q : Nat} (late : start ≤ q) (marked : MarkAt buf q) : start + 1 ≤ q := by
          by_contra early
          obtain rfl : q = start := by omega
          exact mark (Option.some.inj ((List.getElem?_eq_getElem inside).symm.trans marked))
        rw [split, List.dropWhile_cons_of_pos (by simpa using mark)]
        rcases ih (start + 1) (by omega) with ⟨p, ⟨⟨late, marked⟩, least⟩, same⟩ | ⟨nothing, same⟩
        · left
          refine ⟨p, ⟨⟨by omega, marked⟩, ?_⟩, same⟩
          rintro q ⟨late, marked⟩
          exact least ⟨before late marked, marked⟩
        · right
          exact ⟨fun q late marked => nothing q (before late marked) marked, same⟩

theorem found_ne_nil {buf : List UInt8} {start p : Nat} (first : FirstMark buf start p)
    (found : (buf.drop start).dropWhile (· ≠ startMark) = buf.drop p) :
    (buf.drop start).dropWhile (· ≠ startMark) ≠ [] := by
  rw [found]
  intro nothing
  exact absurd (List.drop_eq_nil_iff.mp nothing) (Nat.not_le.mpr first.1.2.inside)

theorem Counted.low {buf : List UInt8} {start q : Nat} (counted : Counted buf start q) :
    start ≤ q := by
  induction counted with
  | here first => exact first.1.1
  | later first _ ih =>
      have low := first.1.1
      omega

theorem counted_iff {buf : List UInt8} {start m q : Nat} (first : FirstMark buf start m) :
    Counted buf start q ↔ q = m ∨ Counted buf (m + minSize) q := by
  constructor
  · intro counted
    cases counted with
    | here first' => exact .inl (first'.unique first)
    | later first' rest => exact .inr (first'.unique first ▸ rest)
  · rintro (rfl | rest)
    · exact .here first
    · exact .later first rest

/-- The search that begins before `p` ends at `p`, unless a mark it counts has `p` among
the bytes that are skipped with it. -/
theorem resync_drop_iff {buf : List UInt8} {start p : Nat} (least : IsLeast {p | StartAt buf p} p)
    (before : start ≤ p) :
    resync (buf.drop start) = buf.drop p ↔
      ∀ q, Counted buf start q → q < p → q + minSize ≤ p := by
  induction left : p - start using Nat.strong_induction_on generalizing start with
  | _ size ih =>
      have mark := least.1.1
      have inside := mark.inside
      rcases dropWhile_drop buf start with ⟨m, first, found⟩ | ⟨nothing, _⟩
      · have something := found_ne_nil first found
        have low := first.1.1
        have upto : m ≤ p := first.2 ⟨before, mark⟩
        simp only [counted_iff first]
        rcases eq_or_lt_of_le upto with rfl | earlier
        · rw [resync_here something (by rw [found]; exact (startAt_iff mark).mp least.1), found]
          refine iff_of_true rfl ?_
          rintro q (rfl | rest) early
          · exact absurd early (lt_irrefl q)
          · have := rest.low
            omega
        · -- the mark at `m` begins nothing, so the search goes on behind its header
          have invalid : getMsgType (buf.drop m) = .invalid := by
            by_contra valid
            exact absurd (least.2 ((startAt_iff first.1.2).mpr valid)) (Nat.not_le.mpr earlier)
          rw [resync_invalid something (by rwa [found]), found, List.drop_drop]
          by_cases kept : m + minSize ≤ p
          · rw [ih _ (by unfold minSize at *; omega) kept rfl]
            constructor
            · rintro clear q (rfl | rest) early
              · exact kept
              · exact clear q rest early
            · intro clear q rest early
              exact clear q (.inr rest) early
          · refine iff_of_false (fun same => ?_) fun clear => kept (clear m (.inl rfl) earlier)
            have shorter := resync_length (buf.drop (m + minSize))
            rw [same] at shorter
            simp only [List.length_drop] at shorter
            omega
      · exact absurd mark (nothing p before)

theorem resync_nowhere {buf : List UInt8} (nowhere : ∀ p, ¬ StartAt buf p) : resync buf = [] := by
  by_contra something
  obtain ⟨mark, valid⟩ := resync_header something
  have tail := List.suffix_iff_eq_drop.mp (resync_suffix buf)
  rw [tail] at mark valid
  have marked := hasStartMark_drop.mp mark
  exact nowhere _ ((startAt_iff marked).mpr valid)

namespace MsgBuffer

/-- `_move_msg_to_start` leaves what begins with the first message start, or nothing. -/
def KeepsStart (b : MsgBuffer) : Prop :=
  ∃ synced, b.moveMsgToStart = .ok synced ∧
    (∀ p, IsLeast {p | StartAt b.buf p} p → synced.buf = b.buf.drop p) ∧
    ((∀ p, ¬ StartAt b.buf p) → synced.buf = [])

/-- Counting the marks from the front, each at least five bytes behind the one before,
none is among the four bytes before the first message start. -/
def Undisturbed (b : MsgBuffer) : Prop :=
  ∀ p, IsLeast {p | StartAt b.buf p} p → ∀ q, Counted b.buf 0 q → q < p → q + minSize ≤ p

end MsgBuffer

/-- Exactly when skipping invalid bytes keeps the message that they precede. -/
theorem start_kept_iff (b : MsgBuffer) : b.KeepsStart ↔ b.Undisturbed := by
  have synced := b.moveMsgToStart_eq
  constructor
  · rintro ⟨_, done, keeps, _⟩ p least
    obtain rfl := Except.ok.inj (synced.symm.trans done)
    exact (resync_drop_iff least (Nat.zero_le p)).mp (keeps p least)
  · intro clear
    refine ⟨_, synced, fun p least => ?_, resync_nowhere⟩
    exact (resync_drop_iff least (Nat.zero_le p)).mpr (clear p least)

/-- A complete receipt behind a single stray mark is dropped. -/
theorem start_behind_mark_lost :
    ¬ (MsgBuffer.init.receive (startMark :: (Message.new (.receipt 7)).getData)).KeepsStart := by
  rintro ⟨synced, done, keeps, _⟩
  rw [MsgBuffer.moveMsgToStart_eq] at done
  obtain rfl := Except.ok.inj done
  have least : IsLeast {p | StartAt (MsgBuffer.init.receive
      (startMark :: (Message.new (.receipt 7)).getData)).buf p} 1 := by
    refine ⟨show StartAt _ 1 by decide +kernel, fun q start => Nat.pos_of_ne_zero ?_⟩
    rintro rfl
    exact absurd start (by decide +kernel)
  have first : FirstMark (MsgBuffer.init.receive
      (startMark :: (Message.new (.receipt 7)).getData)).buf 0 0 :=
    ⟨⟨le_rfl, by decide +kernel⟩, fun _ _ => Nat.zero_le _⟩
  -- the mark at 0 is counted and the message at 1 is among its header
  have clear := (resync_drop_iff least (Nat.zero_le 1)).mp (keeps 1 least) 0 (.here first)
  exact absurd (clear Nat.one_pos) (by decide)

end Battleship
