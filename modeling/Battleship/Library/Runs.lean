import Mathlib.Tactic

/-! Computations that may fail and runs of a machine whose step is one: `step s e`
is the next state or the fault that stopped it. The rules carry a fact about one
step to a whole run, with the events seen so far where the fact is about the
history. -/
namespace Runs

variable {State Event Fault : Type}

/-- A loop that may take more turns than some number has a first one. -/
theorem exists_turn {n turns : Nat} (enough : n < turns) : ∃ left, turns = left + 1 :=
  Nat.exists_eq_succ_of_ne_zero (Nat.ne_of_gt (Nat.zero_lt_of_lt enough))

def Ends {α : Type} (allowed : Fault → Prop) (x : Except Fault α) (post : α → Prop) : Prop :=
  match x with
  | .ok value => post value
  | .error fault => allowed fault

@[simp] theorem ends_ok {α : Type} {allowed : Fault → Prop} {value : α} {post : α → Prop} :
    Ends allowed (.ok value) post ↔ post value := Iff.rfl

theorem Ends.bind {α β : Type} {allowed : Fault → Prop} {x : Except Fault α}
    {f : α → Except Fault β} {middle : α → Prop} {post : β → Prop}
    (first : Ends allowed x middle) (next : ∀ value, middle value → Ends allowed (f value) post) :
    Ends allowed (x >>= f) post := by
  cases x with
  | error fault => exact first
  | ok value => exact next value first

theorem Ends.mono {α : Type} {allowed : Fault → Prop} {x : Except Fault α} {post post' : α → Prop}
    (ends : Ends allowed x post) (weaker : ∀ value, post value → post' value) :
    Ends allowed x post' := by
  cases x with
  | error fault => exact ends
  | ok value => exact weaker value ends

theorem Ends.of_eq {α : Type} {allowed : Fault → Prop} {x : Except Fault α} {post : α → Prop}
    {value : α} (done : x = .ok value) (holds : post value) : Ends allowed x post := by
  subst done
  exact holds

theorem Ends.elim {α : Type} {allowed : Fault → Prop} {x : Except Fault α} {post : α → Prop}
    {value : α} (ends : Ends allowed x post) (done : x = .ok value) : post value := by
  subst done
  exact ends

theorem Ends.fault {α : Type} {allowed : Fault → Prop} {x : Except Fault α} {post : α → Prop}
    {fault : Fault} (ends : Ends allowed x post) (stopped : x = .error fault) : allowed fault := by
  subst stopped
  exact ends

theorem bind_ok {α β : Type} {x : Except Fault α} {f : α → Except Fault β} {result : β}
    (done : (x >>= f) = .ok result) : ∃ value, x = .ok value ∧ f value = .ok result := by
  cases x with
  | error fault => exact absurd done (by simp [Bind.bind, Except.bind])
  | ok value => exact ⟨value, rfl, done⟩

theorem mapError_ok {α Fault' : Type} {x : Except Fault α} {f : Fault → Fault'} {value : α}
    (done : x.mapError f = .ok value) : x = .ok value := by
  cases x with
  | error fault => cases done
  | ok result => exact congrArg Except.ok (Except.ok.inj done)

theorem ok_of_map {α β : Type} {x : Except Fault α} (view : α → β) {seen : β}
    (shown : x.map view = .ok seen) : ∃ value, x = .ok value ∧ view value = seen := by
  cases x with
  | error fault => cases shown
  | ok value => exact ⟨value, rfl, Except.ok.inj shown⟩

def run (step : State → Event → Except Fault State) : State → List Event → Except Fault State
  | s, [] => .ok s
  | s, e :: es =>
      match step s e with
      | .ok s' => run step s' es
      | .error fault => .error fault

variable (step : State → Event → Except Fault State)

@[simp] theorem run_nil (s : State) : run step s [] = .ok s := rfl

theorem run_cons_ok {s s' t : State} {e : Event} {es : List Event} (first : step s e = .ok s') :
    run step s (e :: es) = .ok t ↔ run step s' es = .ok t := by
  simp [run, first]

theorem run_cons {s t : State} {e : Event} {es : List Event}
    (done : run step s (e :: es) = .ok t) :
    ∃ s', step s e = .ok s' ∧ run step s' es = .ok t := by
  cases first : step s e with
  | error fault => simp [run, first] at done
  | ok s' => exact ⟨s', rfl, (run_cons_ok step first).mp done⟩

theorem run_append (s : State) (es es' : List Event) :
    run step s (es ++ es') =
      match run step s es with
      | .ok middle => run step middle es'
      | .error fault => .error fault := by
  induction es generalizing s with
  | nil => rfl
  | cons e es ih =>
      simp only [List.cons_append, run]
      cases step s e with
      | error fault => rfl
      | ok s' => exact ih s'

theorem run_append_ok {s t : State} {es es' : List Event} :
    run step s (es ++ es') = .ok t ↔
      ∃ middle, run step s es = .ok middle ∧ run step middle es' = .ok t := by
  rw [run_append]
  cases run step s es <;> simp

theorem run_snoc_ok {s t : State} {es : List Event} {e : Event} :
    run step s (es ++ [e]) = .ok t ↔
      ∃ middle, run step s es = .ok middle ∧ step middle e = .ok t := by
  rw [run_append_ok]
  refine exists_congr fun middle => and_congr_right fun _ => ?_
  cases last : step middle e <;> simp [run, last]

theorem run_last {s middle t : State} {es : List Event} {e : Event}
    (before : run step s es = .ok middle) (done : run step s (es ++ [e]) = .ok t) :
    step middle e = .ok t := by
  obtain ⟨middle', first, last⟩ := (run_snoc_ok step).mp done
  rw [before] at first
  exact Except.ok.inj first ▸ last

/-- What holds at the start and across every step holds of every state reached. -/
theorem run_invariant {Inv : State → Prop}
    (next : ∀ s e s', Inv s → step s e = .ok s' → Inv s')
    {s t : State} {es : List Event} (start : Inv s) (done : run step s es = .ok t) : Inv t := by
  induction es generalizing s with
  | nil =>
      obtain rfl : s = t := by simpa using done
      exact start
  | cons e es ih =>
      obtain ⟨s', first, rest⟩ := run_cons step done
      exact ih (next s e s' start first) rest

/-- The same for a fact about a state and the events that led to it. -/
theorem run_history {s₀ : State} (Fact : List Event → State → Prop) (start : Fact [] s₀)
    (next : ∀ es s e s', run step s₀ es = .ok s → Fact es s → step s e = .ok s' →
      Fact (es ++ [e]) s')
    {t : State} {es : List Event} (done : run step s₀ es = .ok t) : Fact es t := by
  induction es using List.reverseRecOn generalizing t with
  | nil =>
      obtain rfl : s₀ = t := by simpa using done
      exact start
  | append_singleton es e ih =>
      obtain ⟨s, before, last⟩ := (run_snoc_ok step).mp done
      exact next es s e t before (ih before) last

/-- A quantity that each step raises by no more than the event brings grows by no more
than all events bring. -/
theorem run_measure {size : State → Nat} {brings : Event → Nat}
    (next : ∀ s e s', step s e = .ok s' → size s' ≤ size s + brings e)
    {s t : State} {es : List Event} (done : run step s es = .ok t) :
    size t ≤ size s + (es.map brings).sum := by
  induction es generalizing s with
  | nil =>
      obtain rfl : s = t := by simpa using done
      exact Nat.le_add_right _ _
  | cons e es ih =>
      obtain ⟨s', first, rest⟩ := run_cons step done
      have here := next s e s' first
      have later := ih rest
      simp only [List.map_cons, List.sum_cons]
      omega

/-- `P` holds of every state the run passes through, its first one included. -/
def AllStates (P : State → Prop) : State → List Event → Prop
  | s, [] => P s
  | s, e :: es => P s ∧ ∀ s', step s e = .ok s' → AllStates P s' es

/-- `Good` holds of the state before each event of the run together with it. -/
def AllSteps (Good : State → Event → Prop) : State → List Event → Prop
  | _, [] => True
  | s, e :: es => Good s e ∧ ∀ s', step s e = .ok s' → AllSteps Good s' es

def checkSteps (good : State → Event → Bool) : State → List Event → Bool
  | _, [] => true
  | s, e :: es => good s e &&
      match step s e with
      | .ok s' => checkSteps good s' es
      | .error _ => true

theorem allSteps_of_check {Good : State → Event → Prop} {good : State → Event → Bool}
    (sound : ∀ s e, good s e = true → Good s e) {s : State} {es : List Event}
    (checked : checkSteps step good s es = true) : AllSteps step Good s es := by
  induction es generalizing s with
  | nil => trivial
  | cons e es ih =>
      obtain ⟨here, later⟩ := Bool.and_eq_true_iff.mp checked
      refine ⟨sound s e here, fun s' first => ih ?_⟩
      rw [first] at later
      exact later

theorem AllStates.first {P : State → Prop} {s : State} {es : List Event}
    (states : AllStates step P s es) : P s := by
  cases es with
  | nil => exact states
  | cons _ _ => exact states.1

theorem AllStates.last {P : State → Prop} {s t : State} {es : List Event}
    (states : AllStates step P s es) (done : run step s es = .ok t) : P t := by
  induction es generalizing s with
  | nil =>
      obtain rfl : s = t := by simpa using done
      exact states
  | cons e es ih =>
      obtain ⟨s', first, rest⟩ := run_cons step done
      exact ih (states.2 s' first) rest

theorem AllStates.snoc {P : State → Prop} {s t t' : State} {es : List Event} {e : Event}
    (states : AllStates step P s es) (done : run step s es = .ok t) (last : step t e = .ok t')
    (here : P t') : AllStates step P s (es ++ [e]) := by
  induction es generalizing s with
  | nil =>
      obtain rfl : s = t := by simpa using done
      refine ⟨states, fun t'' again => ?_⟩
      obtain rfl := Except.ok.inj (again.symm.trans last)
      exact here
  | cons e' es ih =>
      obtain ⟨s', first, rest⟩ := run_cons step done
      refine ⟨states.1, fun s'' again => ?_⟩
      obtain rfl := Except.ok.inj (again.symm.trans first)
      exact ih (states.2 s'' first) rest

section Exactly

variable {Inv P : State → Prop} {Good : State → Event → Prop}

/-- Where each step keeps `P` exactly when the step is good, `P` holds all along
a run exactly when all its steps are good. -/
theorem allStates_iff_allSteps
    (keeps : ∀ s e s', Inv s → P s → step s e = .ok s' → Inv s')
    (exact_ : ∀ s e s', Inv s → P s → step s e = .ok s' → (P s' ↔ Good s e))
    {s t : State} {es : List Event} (inv : Inv s) (start : P s)
    (done : run step s es = .ok t) : AllStates step P s es ↔ AllSteps step Good s es := by
  induction es generalizing s with
  | nil => simp [AllStates, AllSteps, start]
  | cons e es ih =>
      obtain ⟨s', first, rest⟩ := run_cons step done
      have turn := exact_ s e s' inv start first
      have inv' := keeps s e s' inv start first
      simp only [AllStates, AllSteps, first, Except.ok.injEq, forall_eq']
      constructor
      · rintro ⟨_, states⟩
        have here : P s' := states.first step
        exact ⟨turn.mp here, (ih inv' here rest).mp states⟩
      · rintro ⟨good, steps⟩
        have here := turn.mpr good
        exact ⟨start, (ih inv' here rest).mpr steps⟩

/-- If no step from a state with `P` fails, good steps make a whole run. -/
theorem run_of_allSteps
    (keeps : ∀ s e s', Inv s → P s → step s e = .ok s' → Inv s')
    (exact_ : ∀ s e s', Inv s → P s → step s e = .ok s' → (P s' ↔ Good s e))
    (total : ∀ s e, Inv s → P s → ∃ s', step s e = .ok s')
    {s : State} {es : List Event} (inv : Inv s) (start : P s)
    (steps : AllSteps step Good s es) : ∃ t, run step s es = .ok t := by
  induction es generalizing s with
  | nil => exact ⟨s, rfl⟩
  | cons e es ih =>
      obtain ⟨s', first⟩ := total s e inv start
      have here := (exact_ s e s' inv start first).mpr steps.1
      obtain ⟨t, rest⟩ := ih (keeps s e s' inv start first) here (steps.2 s' first)
      exact ⟨t, (run_cons_ok step first).mpr rest⟩

end Exactly

/-- Where a step succeeds exactly when it is good, a run does exactly when all of its
steps are. -/
theorem run_ok_iff_allSteps {Good : State → Event → Prop}
    (succeeds : ∀ s e, (∃ s', step s e = .ok s') ↔ Good s e) {s : State} {es : List Event} :
    (∃ t, run step s es = .ok t) ↔ AllSteps step Good s es := by
  induction es generalizing s with
  | nil => simp [AllSteps]
  | cons e es ih =>
      constructor
      · rintro ⟨t, done⟩
        obtain ⟨s', first, rest⟩ := run_cons step done
        refine ⟨(succeeds s e).mp ⟨s', first⟩, fun s'' again => ?_⟩
        obtain rfl : s' = s'' := Except.ok.inj (first.symm.trans again)
        exact ih.mp ⟨t, rest⟩
      · rintro ⟨good, steps⟩
        obtain ⟨s', first⟩ := (succeeds s e).mpr good
        obtain ⟨t, rest⟩ := ih.mpr (steps s' first)
        exact ⟨t, (run_cons_ok step first).mpr rest⟩

/-- Two conditions on a step that come to the same where the invariant holds, and keep
it, come to the same along a run. -/
theorem allSteps_congr (Inv : State → Prop) {Good Good' : State → Event → Prop}
    (same : ∀ s e, Inv s → (Good s e ↔ Good' s e))
    (keeps : ∀ s e s', Inv s → Good s e → step s e = .ok s' → Inv s')
    {s : State} {es : List Event} (inv : Inv s) :
    AllSteps step Good s es ↔ AllSteps step Good' s es := by
  induction es generalizing s with
  | nil => exact Iff.rfl
  | cons e es ih =>
      rw [AllSteps, AllSteps, ← same s e inv]
      exact and_congr_right fun good => forall₂_congr fun s' first =>
        ih (keeps s e s' inv good first)

/-- The same along a run that does not stop, where every step keeps the invariant. -/
theorem allSteps_congr_of_run (Inv : State → Prop) {Good Good' : State → Event → Prop}
    (same : ∀ s e s', Inv s → step s e = .ok s' → (Good s e ↔ Good' s e))
    (keeps : ∀ s e s', Inv s → step s e = .ok s' → Inv s')
    {s t : State} {es : List Event} (inv : Inv s) (done : run step s es = .ok t) :
    AllSteps step Good s es ↔ AllSteps step Good' s es := by
  induction es generalizing s with
  | nil => exact Iff.rfl
  | cons e es ih =>
      obtain ⟨s', first, rest⟩ := run_cons step done
      have later := ih (keeps s e s' inv first) rest
      simp only [AllSteps, first, Except.ok.injEq, forall_eq', same s e s' inv first, later]

theorem AllSteps.snoc {Good : State → Event → Prop} {s t : State} {es : List Event} {e : Event}
    (done : run step s es = .ok t) :
    AllSteps step Good s (es ++ [e]) ↔ AllSteps step Good s es ∧ Good t e := by
  induction es generalizing s with
  | nil =>
      obtain rfl : s = t := by simpa using done
      simp [AllSteps]
  | cons e' es ih =>
      obtain ⟨s', first, rest⟩ := run_cons step done
      simp only [List.cons_append, AllSteps, first, Except.ok.injEq, forall_eq', ih rest, and_assoc]

theorem AllSteps.before {Good : State → Event → Prop} {s : State} {es es' : List Event}
    (steps : AllSteps step Good s (es ++ es')) : AllSteps step Good s es := by
  induction es generalizing s with
  | nil => trivial
  | cons e es ih => exact ⟨steps.1, fun s' first => ih (steps.2 s' first)⟩

section Blind

variable {View : Type} {view : State → View}

/-- The computation treats states with the same view alike: what the view leaves
out has no effect on what it shows. -/
def Blind (view : State → View) (f : State → Except Fault State) : Prop :=
  ∀ s t, view s = view t → (f s).map view = (f t).map view

theorem Blind.pure {f : State → State}
    (keeps : ∀ s t, view s = view t → view (f s) = view (f t)) :
    Blind view fun s => (.ok (f s) : Except Fault State) :=
  fun s t same => congrArg Except.ok (keeps s t same)

/-- Two computations that show the same, each followed by its own. -/
theorem map_bind_congr {x y : Except Fault State} {f g : State → Except Fault State}
    (first : x.map view = y.map view)
    (next : ∀ s t, view s = view t → (f s).map view = (g t).map view) :
    (x >>= f).map view = (y >>= g).map view := by
  cases x with
  | error fault =>
      cases y with
      | error fault' => simpa [Except.map, Bind.bind, Except.bind] using first
      | ok t' => simp [Except.map] at first
  | ok s' =>
      cases y with
      | error fault' => simp [Except.map] at first
      | ok t' =>
          have same : view s' = view t' := by simpa [Except.map] using first
          simpa [Bind.bind, Except.bind] using next s' t' same

theorem Blind.bind {f g : State → Except Fault State} (first : Blind view f)
    (next : Blind view g) : Blind view fun s => f s >>= g :=
  fun s t same => map_bind_congr (first s t same) next

theorem blind_run {step : State → Event → Except Fault State}
    (blind : ∀ e, Blind view fun s => step s e) (es : List Event) :
    Blind view fun s => run step s es := by
  induction es with
  | nil => exact Blind.pure fun _ _ same => same
  | cons e es ih =>
      have unfolded (s : State) : run step s (e :: es) = step s e >>= fun s' => run step s' es := by
        cases first : step s e <;> simp [run, first, Bind.bind, Except.bind]
      simp only [unfolded]
      exact (blind e).bind ih

end Blind

end Runs
