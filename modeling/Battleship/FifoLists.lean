import Battleship.ListCalls

/-! Whole runs of the calls on any number of lists: no call reads a node that is not there,
and what a caller sees of a list is its sequence, until `size` overflows. -/
namespace Battleship

open NodeChain Runs

variable {Id Addr Item : Type}

namespace Lists

section Observers
variable {s : Lists Id Addr Item}

theorem containsFrom_eq [DecidableEq Item] {cells : List (Addr × Item)} {link : Option Addr}
    (chain : Chain s.nodes link cells none) (item : Option Item) {turns : Nat}
    (enough : cells.length < turns) :
    s.containsFrom item turns link = .ok (decide (item ∈ (cells.map Prod.snd).map some)) := by
  induction cells generalizing link turns with
  | nil =>
      obtain ⟨turns, rfl⟩ := exists_turn enough
      obtain rfl : link = none := chain
      rfl
  | cons node cells ih =>
      obtain ⟨turns, rfl⟩ := exists_turn enough
      obtain ⟨rfl, next, here, behind⟩ := chain
      have rest := ih behind (Nat.lt_of_succ_lt_succ enough)
      simp only [containsFrom, read_node here, Bind.bind, Except.bind]
      by_cases same : some node.2 = item
      · rw [if_pos same, ← same]
        simp
      · rw [if_neg same, rest]
        simp [Ne.symm same]

theorem ofNat_inj {i k : Nat} (fits : i < 2 ^ 31) (fits' : k < 2 ^ 31) :
    Int32.ofNat i = Int32.ofNat k ↔ i = k := by
  rw [← Int32.toInt_inj, Int32.toInt_ofNat_of_lt fits, Int32.toInt_ofNat_of_lt fits']
  exact Int.natCast_inj

/-- The loop of `operator[]` counts the nodes up to the one asked for. -/
theorem itemFrom_eq {cells : List (Addr × Item)} {link : Option Addr}
    (chain : Chain s.nodes link cells none) {i k : Nat} (from_ : i ≤ k) (fits : k < 2 ^ 31)
    {turns : Nat} (enough : cells.length < turns) :
    s.itemFrom (Int32.ofNat k) turns (Int32.ofNat i) link =
      .ok ((cells.map Prod.snd)[k - i]?) := by
  induction cells generalizing link turns i with
  | nil =>
      obtain ⟨turns, rfl⟩ := exists_turn enough
      obtain rfl : link = none := chain
      rfl
  | cons node cells ih =>
      obtain ⟨turns, rfl⟩ := exists_turn enough
      obtain ⟨rfl, next, here, behind⟩ := chain
      simp only [itemFrom, read_node here, Bind.bind, Except.bind,
        ofNat_inj (lt_of_le_of_lt from_ fits) fits]
      by_cases same : i = k
      · rw [if_pos same, same, Nat.sub_self]
        rfl
      · have later : i + 1 ≤ k := lt_of_le_of_ne from_ same
        have rest := ih behind later (Nat.lt_of_succ_lt_succ enough)
        rw [Int32.ofNat_add] at rest
        rw [if_neg same, List.map_cons, show k - i = (k - (i + 1)) + 1 by omega,
          List.getElem?_cons_succ]
        exact rest

end Observers

section Refinement
variable [DecidableEq Id] [DecidableEq Addr] [DecidableEq Item]

def Fresh (s : Lists Id Addr Item) : ListOp Id Addr Item → Prop
  | .put _ item addr => item ≠ none → s.nodes addr = none
  | _ => True

omit [DecidableEq Addr] in
/-- A call makes no list longer than the longest by more than one item. -/
theorem step_length {q : Queues Id Item} {n : Nat} (le : ∀ this, (q.items this).length ≤ n)
    (op : ListOp Id Addr Item) (this : Id) : ((q.step op).items this).length ≤ n + 1 := by
  have old := Nat.le_succ_of_le (le this)
  -- at most one sequence is written, and by a shorter one but for `put`
  have written (other : Id) {items : List Item} (short : items.length ≤ n + 1) :
      (Function.update q.items other items this).length ≤ n + 1 := by
    rcases eq_or_ne this other with rfl | differs
    · rw [Function.update_self]
      exact short
    · rw [Function.update_of_ne differs]
      exact old
  have taken (other : Id) (item : Option Item) :
      ((q.take other item).2.items this).length ≤ n + 1 := by
    cases item with
    | none => exact old
    | some item =>
        unfold Queues.take
        dsimp only
        split_ifs
        · exact written other (List.length_erase_le.trans (Nat.le_succ_of_le (le other)))
        · exact old
  cases op with
  | put other item addr =>
      apply written
      have long := le other
      cases item <;> simp <;> omega
  | get other =>
      apply written
      have long := le other
      rw [List.length_tail]
      omega
  | getItem other item => exact taken other item
  | remove other item => exact taken other item
  | clear other => exact written other (Nat.zero_le _)
  | swap one other => exact Nat.le_succ_of_le (le _)

omit [DecidableEq Addr] in
theorem after_snoc (ops : List (ListOp Id Addr Item)) (op : ListOp Id Addr Item) :
    Queues.after (ops ++ [op]) = (Queues.after ops).step op := by
  simp [Queues.after]

omit [DecidableEq Addr] in
theorem after_length (ops : List (ListOp Id Addr Item)) (this : Id) :
    ((Queues.after ops).items this).length ≤ ops.length := by
  induction ops using List.reverseRecOn generalizing this with
  | nil => exact Nat.le_refl _
  | append_singleton ops op ih =>
      rw [after_snoc, List.length_append]
      exact step_length ih op this

/-- The calls succeed one after the other. `size` matters only to `get()`. -/
theorem run_does {ops : List (ListOp Id Addr Item)} {turns : Nat} (enough : ops.length < turns)
    (fresh : AllSteps (step turns) Fresh init ops)
    (fits : ∀ before this, before ++ [.get this] <+: ops →
      ((Queues.after before).items this).length < 2 ^ 31) :
    Does (run turns init ops) (Queues.after ops) := by
  induction ops using List.reverseRecOn with
  | nil => exact ⟨init, _, rfl, init_holds⟩
  | append_singleton ops op ih =>
      rw [List.length_append] at enough
      have shorter : ops.length < turns := Nat.lt_of_succ_lt enough
      obtain ⟨s, nodes, done, holds⟩ := ih shorter fresh.before
        fun before this among => fits before this (among.trans (List.prefix_append _ _))
      have turn := ((AllSteps.snoc (step turns) done).mp fresh).2
      have admits : s.Admits (Queues.after ops) op := by
        cases op with
        | put this item addr => exact turn
        | get this => exact fits ops this (List.prefix_refl _)
        | _ => trivial
      obtain ⟨s', nodes', next, holds'⟩ := step_does holds admits fun this => by
        rw [holds.length]
        exact lt_of_le_of_lt (after_length ops this) shorter
      refine ⟨s', nodes', (run_snoc_ok (step turns)).mpr ⟨s, done, next⟩, ?_⟩
      rw [after_snoc]
      exact holds'

/-- The lists are the sequences. -/
structure Refines (s : Lists Id Addr Item) (turns : Nat) (q : Queues Id Item) : Prop where
  chains : ∃ nodes : Id → List (Addr × Item),
    (∀ this, Chain s.nodes (s.lists this).first (nodes this) none ∧
      ((nodes this).map Prod.fst).Nodup ∧
      (s.lists this).last = (nodes this).getLast?.map Prod.fst ∧
      (s.lists this).size.toInt = (nodes this).length ∧
      (nodes this).map Prod.snd = q.items this) ∧
    ∀ this other, this ≠ other → ∀ node ∈ nodes this, node.1 ∉ (nodes other).map Prod.fst
  first_null : ∀ this, (s.lists this).first = none ↔ q.items this = []
  last_null : ∀ this, (s.lists this).last = none ↔ q.items this = []
  contains : ∀ this item,
    s.contains turns this item = .ok (decide (item ∈ (q.items this).map some))
  getSize : ∀ this, (s.getSize this).toInt = (q.items this).length
  isEmpty : ∀ this, s.isEmpty this = decide (q.items this = [])
  itemAt : ∀ this idx, s.itemAt turns this idx =
    .ok (if idx < 0 then none else (q.items this)[idx.toInt.toNat]?)
  deleted : s.deleted = q.deleted
  returned : s.returned = q.returned

omit [DecidableEq Id] [DecidableEq Addr] in
/-- Sizes that an `int` can count are all that is missing. -/
theorem Holds.refines {s : Lists Id Addr Item} {q : Queues Id Item}
    {nodes : Id → List (Addr × Item)} (holds : s.Holds q nodes)
    (fits : ∀ this, (q.items this).length < 2 ^ 31) {turns : Nat}
    (enough : ∀ this, (q.items this).length < turns) : s.Refines turns q := by
  have size (this : Id) : (s.lists this).size.toInt = (nodes this).length := by
    rw [(holds.spells this).size]
    apply Int32.toInt_ofNat_of_lt
    rw [holds.length]
    exact fits this
  have enough' (this : Id) : (nodes this).length < turns := by
    rw [holds.length]
    exact enough this
  have empty (this : Id) : q.items this = [] ↔ nodes this = [] := by
    rw [← holds.items, List.map_eq_nil_iff]
  constructor
  · refine ⟨nodes, fun this => ⟨(holds.spells this).chain, (holds.spells this).chain.nodup,
      (holds.spells this).last, size this, holds.items this⟩, holds.apart⟩
  · intro this
    rw [(holds.spells this).chain.first_eq, empty]
    simp
  · intro this
    rw [(holds.spells this).last, empty]
    simp
  · intro this item
    rw [← holds.items]
    exact containsFrom_eq (holds.spells this).chain item (enough' this)
  · intro this
    rw [Lists.getSize, size, holds.length]
  · intro this
    unfold Lists.isEmpty Lists.getSize
    apply decide_eq_decide.mpr
    rw [(holds.spells this).size_eq_zero (holds.length this ▸ fits this), empty]
  · intro this idx
    have length := fits this
    rw [← holds.length] at length
    unfold Lists.itemAt
    by_cases negative : idx < 0
    · rw [if_pos (.inl negative), if_pos negative]
    · rw [if_neg negative, ← holds.items]
      have nonneg : 0 ≤ idx := Int32.not_lt.mp negative
      have bound : idx.toInt.toNat < 2 ^ 31 := idx.toNatClampNeg_lt
      have counted : Int32.ofNat idx.toInt.toNat = idx := Int32.ofNat_toNatClampNeg idx nonneg
      have below : idx ≥ (s.lists this).size ↔ (nodes this).length ≤ idx.toInt.toNat := by
        have value := Int32.toInt_ofNat_of_lt bound
        rw [counted] at value
        rw [ge_iff_le, Int32.le_iff_toInt_le, size]
        omega
      by_cases behind : idx ≥ (s.lists this).size
      · have outside : ((nodes this).map Prod.snd)[idx.toInt.toNat]? = none := by
          rw [List.getElem?_eq_none_iff, List.length_map]
          exact below.mp behind
        rw [if_pos (.inr behind), outside]
      · have found := itemFrom_eq (holds.spells this).chain (Nat.zero_le _) bound (enough' this)
        rw [counted] at found
        rw [if_neg fun either => either.elim negative behind]
        exact found
  · exact holds.deleted
  · exact holds.returned

/-- The lists refine first-in first-out sequences, in every run in which no list comes to
hold more items than an `int` can count. -/
theorem lists_refine_queues (ops : List (ListOp Id Addr Item)) (turns : Nat)
    (enough : ops.length < turns) (fresh : AllSteps (step turns) Fresh init ops)
    (fits : ∀ before, before <+: ops → ∀ this, ((Queues.after before).items this).length < 2 ^ 31) :
    ∃ s, run turns init ops = .ok s ∧ s.Refines turns (Queues.after ops) := by
  obtain ⟨s, nodes, done, holds⟩ := run_does enough fresh fun before this among =>
    fits before ((List.prefix_append _ _).trans among) this
  refine ⟨s, done, holds.refines (fits ops (List.prefix_refl _)) fun this => ?_⟩
  exact lt_of_le_of_lt (after_length ops this) enough

/-- Two lists that are exchanged, one of them with itself, and then emptied from the front. -/
theorem lists_refine_queues_swapped :
    ∃ s : Lists Nat Nat Nat,
      run 7 init [.put 0 (some 5) 10, .put 1 (some 6) 11, .put 1 (some 5) 12, .swap 0 1,
        .swap 1 1, .get 0] = .ok s ∧
      s.Refines 7 (Queues.after ([.put 0 (some 5) 10, .put 1 (some 6) 11, .put 1 (some 5) 12,
        .swap 0 1, .swap 1 1, .get 0] : List (ListOp Nat Nat Nat))) := by
  apply lists_refine_queues
  · decide
  · refine ⟨fun _ => rfl, fun s first => ?_⟩
    obtain rfl := Except.ok.inj first
    refine ⟨fun _ => rfl, fun s second => ?_⟩
    obtain rfl := Except.ok.inj second
    refine ⟨fun _ => rfl, fun _ _ => ⟨trivial, fun _ _ => ⟨trivial, fun _ _ => ⟨trivial,
      fun _ _ => trivial⟩⟩⟩⟩
  · intro before among this
    have few := after_length before this
    have short : before.length ≤ 6 := among.length_le
    omega

end Refinement

/-- A node that is not there is not there after a `put` at another address. -/
theorem put_absent [DecidableEq Id] [DecidableEq Addr] {s s' : Lists Id Addr Item} {this : Id}
    {item : Option Item} {addr other : Addr} (done : s.put this item addr = .ok s')
    (elsewhere : other ≠ addr) (absent : s.nodes other = none) : s'.nodes other = none := by
  cases item with
  | none =>
      obtain rfl := Except.ok.inj done
      exact absent
  | some item =>
      have kept : (s.setNode addr (some ⟨item, none⟩)).nodes other = none :=
        (Function.update_of_ne elsewhere _ _).trans absent
      unfold put at done
      dsimp only at done
      split_ifs at done with empty
      · obtain rfl := Except.ok.inj done
        exact kept
      · cases last : (s.lists this).last with
        | none =>
            rw [last] at done
            contradiction
        | some last' =>
            rw [last] at done
            obtain ⟨node, found, done⟩ := bind_ok done
            obtain rfl := Except.ok.inj done
            -- the node that is written was read before
            have differs : other ≠ last' := by
              rintro rfl
              simp [read, kept] at found
            exact (Function.update_of_ne differs _ _).trans kept

/-- As many calls of `put` on one list, each at the next address. -/
def puts (n : Nat) : List (ListOp Nat Nat Nat) :=
  (List.range n).map fun addr => .put 0 (some 7) addr

theorem puts_succ (n : Nat) : puts (n + 1) = puts n ++ [.put 0 (some 7) n] := by
  rw [puts, List.range_succ, List.map_append]
  rfl

theorem puts_length (n : Nat) : (puts n).length = n := by
  rw [puts, List.length_map, List.length_range]

theorem puts_items (n : Nat) : ((Queues.after (puts n)).items 0).length = n := by
  induction n with
  | zero => rfl
  | succ n ih =>
      have written : (Queues.after (puts (n + 1))).items 0 =
          (Queues.after (puts n)).items 0 ++ [7] := by
        rw [puts_succ, after_snoc]
        simp only [Queues.step, Function.update_self, Option.toList_some]
      rw [written, List.length_append, ih, List.length_singleton]

theorem puts_does {turns n : Nat} (enough : n < turns)
    (fresh : AllSteps (step turns) Fresh init (puts n)) :
    Does (run turns init (puts n)) (Queues.after (puts n)) := by
  apply run_does
  · rw [puts_length]
    exact enough
  · exact fresh
  · intro before this among
    have called : (.get this : ListOp Nat Nat Nat) ∈ puts n :=
      among.subset (List.mem_append_right before List.mem_cons_self)
    obtain ⟨addr, _, other⟩ := List.mem_map.mp called
    contradiction

theorem puts_fresh {turns n : Nat} (enough : n < turns) :
    AllSteps (step turns) Fresh init (puts n) ∧
      ∀ s, run turns init (puts n) = .ok s → ∀ addr, n ≤ addr → s.nodes addr = none := by
  induction n with
  | zero =>
      refine ⟨trivial, fun s done addr _ => ?_⟩
      obtain rfl := Except.ok.inj done
      rfl
  | succ n ih =>
      obtain ⟨fresh, absent⟩ := ih (Nat.lt_of_succ_lt enough)
      obtain ⟨s, _, done, _⟩ := puts_does (Nat.lt_of_succ_lt enough) fresh
      rw [puts_succ]
      constructor
      · exact (AllSteps.snoc (step turns) done).mpr ⟨fresh, fun _ => absent s done n le_rfl⟩
      · intro s' done' addr later
        obtain ⟨middle, before, last⟩ := (run_snoc_ok (step turns)).mp done'
        have elsewhere : addr ≠ n := by omega
        have put_ : middle.put 0 (some 7) n = .ok s' := last
        exact put_absent put_ elsewhere (absent middle before addr (Nat.le_of_succ_le later))

theorem puts_overflow {turns n : Nat} (enough : n < turns) (many : n = 2 ^ 31) :
    AllSteps (step turns) Fresh init (puts n) ∧
      ∃ s, run turns init (puts n) = .ok s ∧ ((Queues.after (puts n)).items 0).length = 2 ^ 31 ∧
        (s.lists 0).size.toInt = -2 ^ 31 ∧ ¬s.Refines turns (Queues.after (puts n)) := by
  have fresh := (puts_fresh enough).1
  obtain ⟨s, nodes, done, holds⟩ := puts_does enough fresh
  have items := puts_items n
  refine ⟨fresh, s, done, items.trans many, ?_, fun refines => ?_⟩
  · rw [(holds.spells 0).size, holds.length, items, many]
    decide
  · have size := refines.getSize 0
    have bound := (s.getSize 0).toInt_lt
    rw [size, items, many] at bound
    contradiction

/-- An `int` cannot count the nodes of a list with 2147483648 items. -/
theorem lists_size_overflows :
    AllSteps (step (2 ^ 31 + 1)) Fresh init (puts (2 ^ 31)) ∧
      ∃ s, run (2 ^ 31 + 1) init (puts (2 ^ 31)) = .ok s ∧
        ((Queues.after (puts (2 ^ 31))).items 0).length = 2 ^ 31 ∧
        (s.lists 0).size.toInt = -2 ^ 31 ∧
        ¬s.Refines (2 ^ 31 + 1) (Queues.after (puts (2 ^ 31))) :=
  puts_overflow (Nat.lt_succ_self _) rfl

end Lists
end Battleship
