import Battleship.FieldFleet

/-! Ships and the order of their ends. The constructor negates the signed length of a ship
given backwards and so loses two of its cells; at distance one it does not even swap. -/
namespace Battleship

namespace Point

def distance (p q : Point) : Nat := (p.x - q.x).natAbs + (p.y - q.y).natAbs

/-- The points share a row or a column. -/
def Aligned (p q : Point) : Prop := p.x = q.x ∨ p.y = q.y

def Between (p q a : Point) : Prop :=
  (min p.x q.x ≤ a.x ∧ a.x ≤ max p.x q.x) ∧ min p.y q.y ≤ a.y ∧ a.y ≤ max p.y q.y

/-- `p` is the upper or left one, as in reading order. -/
def Precedes (p q : Point) : Prop := p.x ≤ q.x ∧ p.y ≤ q.y

theorem distance_comm (p q : Point) : p.distance q = q.distance p := by
  unfold distance
  omega

theorem distance_eq_zero {p q : Point} : p.distance q = 0 ↔ p = q := by
  unfold distance
  constructor
  · intro zero
    apply Point.ext' <;> omega
  · rintro rfl
    omega

theorem Aligned.symm {p q : Point} (aligned : p.Aligned q) : q.Aligned p :=
  aligned.imp Eq.symm Eq.symm

theorem between_comm {p q a : Point} : p.Between q a ↔ q.Between p a := by
  unfold Between
  rw [min_comm p.x, max_comm p.x, min_comm p.y, max_comm p.y]

theorem Aligned.precedes {p q : Point} (aligned : p.Aligned q) : p.Precedes q ∨ q.Precedes p := by
  unfold Aligned Precedes at *
  omega

end Point

namespace Ship

def Void (ship : Ship) : Prop := ship.type = .invalid ∧ ∀ a, ship.contains a = false

structure Spans (ship : Ship) (p q : Point) : Prop where
  type : p.Aligned q → ship.type = shipType (p.distance q + 1)
  points : p.Aligned q → p.distance q ≤ 4 →
    ship.cells.Nodup ∧ ship.cells.length = p.distance q + 1 ∧
      ∀ a, ship.contains a = true ↔ p.Between q a
  long : p.Aligned q → 4 < p.distance q → ship.Void
  apart : ¬ p.Aligned q → ship.Void

/-- The ships of the two orders agree and are what the points say. -/
structure OrderFree (p q : Point) : Prop where
  forwards : (ofEnds p q).Spans p q
  backwards : (ofEnds q p).Spans p q
  length : (ofEnds p q).getLength = (ofEnds q p).getLength
  orientation : (ofEnds p q).isVertical = (ofEnds q p).isVertical

theorem Spans.symm {ship : Ship} {p q : Point} (spans : ship.Spans p q) : ship.Spans q p := by
  constructor
  · intro aligned
    rw [q.distance_comm]
    exact spans.type aligned.symm
  · intro aligned near
    rw [q.distance_comm] at near ⊢
    simp only [Point.between_comm (p := q)]
    exact spans.points aligned.symm near
  · intro aligned far
    rw [q.distance_comm] at far
    exact spans.long aligned.symm far
  · intro apart
    exact spans.apart fun aligned => apart aligned.symm

theorem OrderFree.symm {p q : Point} (free : OrderFree p q) : OrderFree q p :=
  ⟨free.backwards.symm, free.forwards.symm, free.length.symm, free.orientation.symm⟩

theorem void_of_invalid {ship : Ship} (invalid : ship.type = .invalid) : ship.Void :=
  ⟨invalid, fun _ => if_pos invalid⟩

theorem contains_iff {ship : Ship} (known : ship.type ≠ .invalid) (a : Point) :
    ship.contains a = true ↔ a ∈ ship.cells := by
  rw [contains, if_neg known, decide_eq_true_iff]

theorem ofEnds_forwards {p q : Point} (aligned : p.Aligned q) (order : p.Precedes q) :
    ofEnds p q = ⟨shipType (p.distance q + 1), p, q⟩ := by
  obtain ⟨x, y⟩ := p
  obtain ⟨x', y'⟩ := q
  obtain ⟨across, down⟩ := order
  rcases aligned with same | same
  · obtain rfl : x = x' := same
    have length : ((Point.distance ⟨x, y⟩ ⟨x, y'⟩ : Nat) : Int) + 1 = y' - y + 1 := by
      simp only [Point.distance] at down ⊢
      omega
    rw [ofEnds_column x down, length]
  · obtain rfl : y = y' := same
    have length : ((Point.distance ⟨x, y⟩ ⟨x', y⟩ : Nat) : Int) + 1 = x' - x + 1 := by
      simp only [Point.distance] at across ⊢
      omega
    rw [ofEnds_row y across, length]

/-- The type of the ship given backwards: its length comes out as `1 - d`. -/
theorem ofEnds_backwards {p q : Point} (aligned : p.Aligned q) (order : p.Precedes q)
    (several : p ≠ q) : (ofEnds q p).type = shipType (p.distance q - 1) := by
  obtain ⟨x, y⟩ := p
  obtain ⟨x', y'⟩ := q
  have ends : (⟨x', y'⟩ : Point) ≠ ⟨x, y⟩ := several.symm
  obtain ⟨across, down⟩ := order
  rcases aligned with same | same
  · obtain rfl : x = x' := same
    have below : y < y' := lt_of_le_of_ne down fun same => several (by rw [same])
    have length : ((Point.distance ⟨x, y⟩ ⟨x, y'⟩ : Nat) : Int) = y' - y := by
      simp only [Point.distance]
      omega
    simp only [ofEnds, if_neg ends, length, ↓reduceIte]
    split_ifs with swapped
    · exact congrArg shipType (by omega)
    · obtain rfl : y' = y + 1 := by omega
      simp [shipType]
  · obtain rfl : y = y' := same
    have beside : x < x' := lt_of_le_of_ne across fun same => several (by rw [same])
    have column : x' ≠ x := (ne_of_lt beside).symm
    have length : ((Point.distance ⟨x, y⟩ ⟨x', y⟩ : Nat) : Int) = x' - x := by
      simp only [Point.distance]
      omega
    simp only [ofEnds, if_neg ends, if_neg column, length, ↓reduceIte]
    split_ifs with swapped
    · exact congrArg shipType (by omega)
    · obtain rfl : x' = x + 1 := by omega
      simp [shipType]

theorem ofEnds_apart {p q : Point} (apart : ¬ p.Aligned q) : (ofEnds p q).type = .invalid := by
  obtain ⟨column, row⟩ := not_or.mp apart
  have several : p ≠ q := fun same => column (congrArg Point.x same)
  rw [ofEnds, if_neg several, if_neg column, if_neg row]

theorem shipType_long {len : Int} (long : 5 < len) : shipType len = .invalid := by
  unfold shipType
  split_ifs <;> first | omega | rfl

/-- The two lengths differ by two, which only lengths beyond every ship forgive. -/
theorem shipType_backwards_iff {d : Nat} (several : 0 < d) :
    shipType (d - 1) = shipType (d + 1) ↔ 7 ≤ d := by
  constructor
  · intro same
    by_contra short
    have cases_ : d = 1 ∨ d = 2 ∨ d = 3 ∨ d = 4 ∨ d = 5 ∨ d = 6 := by omega
    rcases cases_ with rfl | rfl | rfl | rfl | rfl | rfl <;> cases same
  · intro long
    rw [shipType_long (by omega), shipType_long (by omega)]

theorem mem_cells_forwards {p q : Point} (aligned : p.Aligned q) (order : p.Precedes q)
    (known : shipType (p.distance q + 1) ≠ .invalid) (a : Point) :
    a ∈ (⟨shipType (p.distance q + 1), p, q⟩ : Ship).cells ↔ p.Between q a := by
  obtain ⟨x, y⟩ := p
  obtain ⟨x', y'⟩ := q
  obtain ⟨across, down⟩ := order
  unfold Point.Between
  dsimp only at across down ⊢
  rw [min_eq_left across, max_eq_right across, min_eq_left down, max_eq_right down]
  by_cases column : x = x'
  · subst column
    have length : ((Point.distance ⟨x, y⟩ ⟨x, y'⟩ : Nat) : Int) = y' - y := by
      simp only [Point.distance]
      omega
    rw [length] at known ⊢
    rw [mem_cells_column down known]
    omega
  · obtain rfl : y = y' := aligned.resolve_left column
    have length : ((Point.distance ⟨x, y⟩ ⟨x', y⟩ : Nat) : Int) = x' - x := by
      simp only [Point.distance]
      omega
    rw [length] at known ⊢
    rw [mem_cells_row (lt_of_le_of_ne across column) known]
    omega

theorem forwards_spans {p q : Point} (aligned : p.Aligned q) (order : p.Precedes q) :
    (ofEnds p q).Spans p q := by
  rw [ofEnds_forwards aligned order]
  constructor
  · intro _
    rfl
  · intro _ near
    have known : shipType (p.distance q + 1) ≠ .invalid := by
      unfold shipType
      split_ifs <;> first | omega | simp
    refine ⟨cells_nodup known, ?_, fun a => ?_⟩
    · rw [cells_length]
      exact_mod_cast @shipLength_shipType (p.distance q + 1) (by exact_mod_cast known)
    · rw [contains_iff known, mem_cells_forwards aligned order known]
  · intro _ far
    exact void_of_invalid (shipType_long (by omega))
  · intro apart
    exact absurd aligned apart

theorem apart_spans {p q r s : Point} (apart : ¬ p.Aligned q) (apart' : ¬ r.Aligned s) :
    (ofEnds r s).Spans p q :=
  ⟨fun aligned => absurd aligned apart, fun aligned => absurd aligned apart,
    fun aligned => absurd aligned apart, fun _ => void_of_invalid (ofEnds_apart apart')⟩

theorem void_spans {ship : Ship} {p q : Point} (void : ship.type = .invalid)
    (far : 4 < p.distance q) : ship.Spans p q :=
  ⟨fun _ => void.trans (shipType_long (by omega)).symm,
    fun _ near => absurd far (Nat.not_lt.mpr near), fun _ _ => void_of_invalid void,
    fun _ => void_of_invalid void⟩

theorem orderFree_of_invalid {p q : Point} (forwards : (ofEnds p q).Spans p q)
    (backwards : (ofEnds q p).Spans p q) (void : (ofEnds p q).type = .invalid)
    (void' : (ofEnds q p).type = .invalid) : OrderFree p q := by
  refine ⟨forwards, backwards, ?_, ?_⟩
  · rw [getLength, getLength, void, void']
  · rw [isVertical, isVertical, if_pos void, if_pos void']

theorem orderFree_iff_ordered {p q : Point} (aligned : p.Aligned q) (order : p.Precedes q) :
    OrderFree p q ↔ p = q ∨ 7 ≤ p.distance q := by
  constructor
  · intro free
    by_cases same : p = q
    · exact .inl same
    · right
      have apart : 0 < p.distance q :=
        Nat.pos_of_ne_zero fun zero => same (Point.distance_eq_zero.mp zero)
      apply (shipType_backwards_iff apart).mp
      rw [← ofEnds_backwards aligned order same]
      exact free.backwards.type aligned
  · rintro (rfl | far)
    · have spans := forwards_spans aligned order
      exact ⟨spans, spans, rfl, rfl⟩
    · have several : p ≠ q := fun same => by
        rw [Point.distance_eq_zero.mpr same] at far
        exact absurd far (by decide)
      have void : (ofEnds p q).type = .invalid := by
        rw [ofEnds_forwards aligned order]
        exact shipType_long (by omega)
      have void' : (ofEnds q p).type = .invalid := by
        rw [ofEnds_backwards aligned order several]
        exact shipType_long (by omega)
      exact orderFree_of_invalid (void_spans void (by omega)) (void_spans void' (by omega))
        void void'

end Ship

/-- Exactly when a ship does not depend on the order of its ends: they are one point, they
share neither row nor column, or they are at least seven cells apart. -/
theorem ship_orderFree_iff (p q : Point) :
    Ship.OrderFree p q ↔ p = q ∨ ¬ p.Aligned q ∨ 7 ≤ p.distance q := by
  by_cases aligned : p.Aligned q
  · simp only [aligned, not_true_eq_false, false_or]
    rcases aligned.precedes with order | order
    · exact Ship.orderFree_iff_ordered aligned order
    · rw [← q.distance_comm p, eq_comm (a := p),
        ← Ship.orderFree_iff_ordered aligned.symm order]
      exact ⟨Ship.OrderFree.symm, Ship.OrderFree.symm⟩
  · have apart' : ¬ q.Aligned p := fun other => aligned other.symm
    simp only [aligned, not_false_eq_true, true_or, or_true, iff_true]
    exact Ship.orderFree_of_invalid (Ship.apart_spans aligned aligned)
      (Ship.apart_spans aligned apart') (Ship.ofEnds_apart aligned) (Ship.ofEnds_apart apart')

/-- A ship of two cells given backwards is no ship. -/
theorem reversed_ship_invalid : ¬ Ship.OrderFree ⟨1, 3⟩ ⟨2, 3⟩ := by
  intro free
  have type := free.backwards.type (.inr rfl)
  revert type
  decide

end Battleship
