import Battleship.TimerCharge

/-! A handler over many calls of `process`. The time that passed is formed by `run` from
two readings of the clock, with a borrow of its own; here both borrows are followed
through any number of calls. -/
namespace Battleship

/-- The two readings around a `select`. -/
structure Reading where
  before : Timeval
  after : Timeval
  deriving DecidableEq, Repr

namespace Reading

def Valid (r : Reading) : Prop :=
  r.before.Valid ∧ r.after.Valid ∧ r.before.micros ≤ r.after.micros

instance (r : Reading) : Decidable r.Valid := inferInstanceAs (Decidable (_ ∧ _))

def micros (r : Reading) : Int := r.after.micros - r.before.micros

/-- What `run` passes on. -/
def passed (r : Reading) : Timeval := passedTime r.before r.after

theorem Valid.micros_nonneg {r : Reading} (valid : r.Valid) : 0 ≤ r.micros :=
  Int.sub_nonneg_of_le valid.2.2

end Reading

/-- The time that passed between all the readings, in microseconds. -/
def passedSum (readings : List Reading) : Int := (readings.map Reading.micros).sum

theorem passedSum_cons (r : Reading) (readings : List Reading) :
    passedSum (r :: readings) = r.micros + passedSum readings := rfl

theorem passedSum_nonneg {readings : List Reading} (valid : ∀ r ∈ readings, r.Valid) :
    0 ≤ passedSum readings := by
  apply List.sum_nonneg
  intro d member
  obtain ⟨r, within, rfl⟩ := List.mem_map.mp member
  exact (valid r within).micros_nonneg

theorem passedSum_take_le {readings : List Reading} (valid : ∀ r ∈ readings, r.Valid)
    {i j : Nat} (le : i ≤ j) : passedSum (readings.take i) ≤ passedSum (readings.take j) := by
  induction readings generalizing i j with
  | nil => simp
  | cons r readings ih =>
      have rest : ∀ r ∈ readings, r.Valid := fun r member =>
        valid r (List.mem_cons_of_mem _ member)
      cases i with
      | zero => exact passedSum_nonneg fun r member => valid r (List.mem_of_mem_take member)
      | succ i =>
          cases j with
          | zero => omega
          | succ j =>
              have step := ih rest (Nat.le_of_succ_le_succ le)
              rw [List.take_succ_cons, List.take_succ_cons, passedSum_cons, passedSum_cons]
              omega

namespace TimeoutHandler

/-- `process` in turn for each pair of readings: what each call answers, which is whether
it triggers the event, and what it leaves. -/
def calls (t : TimeoutHandler) : List Reading → List (Bool × TimeoutHandler)
  | [] => []
  | r :: readings =>
      let call := t.process r.passed.sec r.passed.usec
      call :: call.2.calls readings

theorem calls_length (t : TimeoutHandler) (readings : List Reading) :
    (t.calls readings).length = readings.length := by
  induction readings generalizing t with
  | nil => rfl
  | cons r readings ih => simp [calls, ih]

theorem Normal.micros_nonneg {t : TimeoutHandler} (normal : t.Normal) : 0 ≤ t.micros := by
  unfold Normal micros at *
  omega

theorem process_normal {t : TimeoutHandler} (normal : t.Normal) {r : Reading}
    (valid : r.Valid) :
    (t.process r.passed.sec r.passed.usec).2.Normal ∧
      (t.process r.passed.sec r.passed.usec).2.micros = max 0 (t.micros - r.micros) ∧
      ((t.process r.passed.sec r.passed.usec).1 = true ↔
        0 < t.micros ∧ t.micros ≤ r.micros) := by
  have time := passedTime_spec valid.1 valid.2.1 valid.2.2
  have nonneg := normal.micros_nonneg
  have passes := valid.micros_nonneg
  cases state : t.elapsed with
  | true =>
      -- the call returns at its first test
      have spent : t.micros ≤ 0 := by
        by_contra left
        have running := normal.running.mpr (Int.not_le.mp left)
        rw [state] at running
        contradiction
      have idle : t.process r.passed.sec r.passed.usec = (false, t) := by
        unfold process
        rw [if_pos state]
      rw [idle]
      refine ⟨normal, ?_, ?_⟩
      · change t.micros = _
        omega
      · constructor
        · intro triggered
          contradiction
        · intro left
          omega
  | false =>
      have spec := process_spec normal state time.1
      have left := normal.running.mp state
      have same : r.passed.micros = r.micros := time.2
      change _ ∧ _ ∧ _ at spec
      rw [show passedTime r.before r.after = r.passed from rfl, same] at spec
      refine ⟨spec.1, ?_, ?_⟩
      · rw [spec.2.1, max_comm]
      · rw [spec.2.2]
        exact ⟨fun reached => ⟨left, reached⟩, fun reached => reached.2⟩

/-- Each call of a run, in terms of what passed before it and with it. -/
theorem calls_spec {t : TimeoutHandler} (normal : t.Normal) {readings : List Reading}
    (valid : ∀ r ∈ readings, r.Valid) (i : Nat) (call : Bool × TimeoutHandler)
    (made : (t.calls readings)[i]? = some call) :
    call.2.Normal ∧
      call.2.micros = max 0 (t.micros - passedSum (readings.take (i + 1))) ∧
      (call.1 = true ↔ passedSum (readings.take i) < t.micros ∧
        t.micros ≤ passedSum (readings.take (i + 1))) := by
  induction readings generalizing t i with
  | nil => simp [calls] at made
  | cons r readings ih =>
      have step := process_normal normal (valid r List.mem_cons_self)
      cases i with
      | zero =>
          obtain rfl : t.process r.passed.sec r.passed.usec = call := by
            simpa [calls] using made
          have one : passedSum ((r :: readings).take 1) = r.micros := by
            simp [passedSum]
          rw [one]
          exact step
      | succ i =>
          have rest : ∀ r ∈ readings, r.Valid := fun r member =>
            valid r (List.mem_cons_of_mem _ member)
          have later := ih step.1 rest i made
          -- the sums of the later calls leave the first reading out
          have first := (valid r List.mem_cons_self).micros_nonneg
          have before : 0 ≤ passedSum (readings.take i) :=
            passedSum_nonneg fun r member => rest r (List.mem_of_mem_take member)
          have upTo : 0 ≤ passedSum (readings.take (i + 1)) :=
            passedSum_nonneg fun r member => rest r (List.mem_of_mem_take member)
          rw [step.2.1] at later
          rw [List.take_succ_cons, List.take_succ_cons, passedSum_cons, passedSum_cons]
          refine ⟨later.1, ?_, ?_⟩
          · rw [later.2.1]
            omega
          · rw [later.2.2]
            omega

/-- The countdown is exact: after every call what remains is the total less all that
passed, and the event is triggered in the first call that reaches the total. -/
theorem countdown_exact (sec usec : Int) (readings : List Reading)
    (sec_nonneg : 0 ≤ sec) (usec_nonneg : 0 ≤ usec) (usec_lt : usec < 1000000)
    (some_time : ¬(sec = 0 ∧ usec = 0)) (valid : ∀ r ∈ readings, r.Valid) :
    ((⟨sec, usec⟩ : TimeoutHandler).calls readings).length = readings.length ∧
      ∀ i call, ((⟨sec, usec⟩ : TimeoutHandler).calls readings)[i]? = some call →
        call.2.sec * 1000000 + call.2.usec =
            max 0 (sec * 1000000 + usec - passedSum (readings.take (i + 1))) ∧
          0 ≤ call.2.sec ∧ 0 ≤ call.2.usec ∧ call.2.usec < 1000000 ∧
          (call.1 = true ↔ sec * 1000000 + usec ≤ passedSum (readings.take (i + 1)) ∧
            ∀ j < i, passedSum (readings.take (j + 1)) < sec * 1000000 + usec) := by
  constructor
  · apply calls_length
  intro i call made
  have normal : Normal ⟨sec, usec⟩ := ⟨sec_nonneg, usec_nonneg, usec_lt⟩
  obtain ⟨kept, left, triggers⟩ := calls_spec normal valid i call made
  refine ⟨left, kept.1, kept.2.1, kept.2.2, triggers.trans ?_⟩
  change _ < sec * 1000000 + usec ∧ sec * 1000000 + usec ≤ _ ↔ _
  constructor
  · rintro ⟨before, reached⟩
    refine ⟨reached, fun j earlier => ?_⟩
    have grows := passedSum_take_le valid (Nat.succ_le_of_lt earlier)
    exact lt_of_le_of_lt grows before
  · rintro ⟨reached, before⟩
    refine ⟨?_, reached⟩
    cases i with
    | zero =>
        -- no time has passed before the first call
        have none_yet : passedSum (readings.take 0) = 0 := rfl
        omega
    | succ i => exact before i (Nat.lt_succ_self i)

/-- A second and a half over three calls: both borrows are taken. -/
theorem countdown_exact_borrows :
    ((⟨1, 500000⟩ : TimeoutHandler).calls
        [⟨⟨10, 900000⟩, ⟨11, 500000⟩⟩, ⟨⟨11, 600000⟩, ⟨13, 100000⟩⟩,
          ⟨⟨13, 100000⟩, ⟨13, 100000⟩⟩]).length = 3 ∧
      ∀ i call, ((⟨1, 500000⟩ : TimeoutHandler).calls
        [⟨⟨10, 900000⟩, ⟨11, 500000⟩⟩, ⟨⟨11, 600000⟩, ⟨13, 100000⟩⟩,
          ⟨⟨13, 100000⟩, ⟨13, 100000⟩⟩])[i]? = some call → (call.1 = true ↔ i = 1) := by
  have exact_run := countdown_exact 1 500000
    [⟨⟨10, 900000⟩, ⟨11, 500000⟩⟩, ⟨⟨11, 600000⟩, ⟨13, 100000⟩⟩, ⟨⟨13, 100000⟩, ⟨13, 100000⟩⟩]
    (by decide) (by decide) (by decide) (by decide) (by decide)
  refine ⟨exact_run.1, fun i call made => ?_⟩
  have within := (List.getElem?_eq_some_iff.mp made).1
  rw [exact_run.1] at within
  rw [(exact_run.2 i call made).2.2.2.2]
  have bound : i < 3 := within
  interval_cases i <;> decide

end TimeoutHandler
end Battleship
