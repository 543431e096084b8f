import Battleship.PointerList

/-! Each call of a list does to the nodes what it should do to the sequence: an item goes
to the end, comes from the front, or is taken out where it first occurs. The other lists
keep their nodes. -/
namespace Battleship

open NodeChain Runs

variable {Id Addr Item : Type}

namespace Lists

/-- Every list has its nodes, no two lists share one, and what they hold are the sequences. -/
structure Holds (s : Lists Id Addr Item) (q : Queues Id Item) (nodes : Id → List (Addr × Item)) :
    Prop where
  spells : ∀ this, (s.lists this).Spells s.nodes (nodes this)
  apart : ∀ this other, this ≠ other → ∀ node ∈ nodes this,
    node.1 ∉ (nodes other).map Prod.fst
  items : ∀ this, (nodes this).map Prod.snd = q.items this
  deleted : s.deleted = q.deleted
  returned : s.returned = q.returned

theorem Holds.length {s : Lists Id Addr Item} {q : Queues Id Item} {nodes : Id → List (Addr × Item)}
    (holds : s.Holds q nodes) (this : Id) : (nodes this).length = (q.items this).length := by
  rw [← holds.items, List.length_map]

theorem init_holds : (init : Lists Id Addr Item).Holds Queues.init fun _ => [] := by
  constructor
  · exact fun _ => ⟨rfl, rfl, rfl⟩
  · exact fun _ _ _ _ member => absurd member List.not_mem_nil
  · exact fun _ => rfl
  · rfl
  · rfl

section Change
variable [DecidableEq Id] {s s' : Lists Id Addr Item} {q : Queues Id Item}
  {nodes : Id → List (Addr × Item)}

/-- One list is changed: it keeps to its own nodes and to new ones, and so the others are
what they were. -/
theorem Holds.change (holds : s.Holds q nodes) (this : Id) {list : PointerList Addr}
    {nodes' : List (Addr × Item)} (lists : s'.lists = Function.update s.lists this list)
    (spells : list.Spells s'.nodes nodes')
    (kept : ∀ addr, addr ∉ (nodes this).map Prod.fst → s.nodes addr ≠ none →
      s'.nodes addr = s.nodes addr)
    (within : ∀ node ∈ nodes', node.1 ∈ (nodes this).map Prod.fst ∨ s.nodes node.1 = none)
    {q' : Queues Id Item} (items : q'.items = Function.update q.items this (nodes'.map Prod.snd))
    (deleted : s'.deleted = q'.deleted) (returned : s'.returned = q'.returned) :
    s'.Holds q' (Function.update nodes this nodes') := by
  -- a node of another list is none of these
  have foreign {other : Id} (differs : other ≠ this) {node : Addr × Item}
      (member : node ∈ nodes other) :
      node.1 ∉ (nodes this).map Prod.fst ∧ s.nodes node.1 ≠ none := by
    obtain ⟨next, there⟩ := (holds.spells other).chain.mem_store member
    exact ⟨holds.apart other this differs node member, there ▸ Option.some_ne_none _⟩
  constructor
  · intro other
    rw [lists]
    rcases eq_or_ne other this with rfl | differs
    · rw [Function.update_self, Function.update_self]
      exact spells
    · rw [Function.update_of_ne differs, Function.update_of_ne differs]
      have old := holds.spells other
      refine ⟨old.chain.congr fun node member => ?_, old.last, old.size⟩
      exact kept node.1 (foreign differs member).1 (foreign differs member).2
  · intro one two differs node member shared
    obtain ⟨node', member', same⟩ := List.mem_map.mp shared
    rcases eq_or_ne one this with rfl | other
    · rw [Function.update_self] at member
      rw [Function.update_of_ne differs.symm] at member'
      have away := foreign differs.symm member'
      rw [same] at away
      rcases within node member with old | new
      · exact away.1 old
      · exact away.2 new
    · rw [Function.update_of_ne other] at member
      rcases eq_or_ne two this with rfl | other'
      · rw [Function.update_self] at member'
        have away := foreign other member
        rcases within node' member' with old | new
        · exact away.1 (same ▸ old)
        · exact away.2 (same ▸ new)
      · rw [Function.update_of_ne other'] at shared
        exact holds.apart one two differs node member shared
  · intro other
    rw [items]
    rcases eq_or_ne other this with rfl | differs
    · rw [Function.update_self, Function.update_self]
    · rw [Function.update_of_ne differs, Function.update_of_ne differs]
      exact holds.items other
  · exact deleted
  · exact returned

theorem Holds.dropFirst [DecidableEq Addr] (holds : s.Holds q nodes) {this : Id} {tmp : Addr} {item : Item}
    {rest : List (Addr × Item)} {next : Option Addr} (split : nodes this = (tmp, item) :: rest)
    (here : s.nodes tmp = some ⟨item, next⟩) {q' : Queues Id Item}
    (items : q'.items = Function.update q.items this (rest.map Prod.snd))
    (deleted : q.deleted = q'.deleted) (returned : q.returned = q'.returned) :
    (s.dropFirst this tmp ⟨item, next⟩).Holds q' (Function.update nodes this rest) := by
  have spells := holds.spells this
  rw [split] at spells
  apply holds.change this rfl (spells.drop_first here)
  · rw [split]
    intro addr elsewhere _
    apply Function.update_of_ne
    rintro rfl
    exact elsewhere (by simp)
  · rw [split]
    exact fun node member => .inl (List.mem_map_of_mem (List.mem_cons_of_mem _ member))
  · exact items
  · exact holds.deleted.trans deleted
  · exact holds.returned.trans returned

theorem Holds.dropNext [DecidableEq Addr] (holds : s.Holds q nodes) {this : Id} {prev addr : Addr} {held item : Item}
    {before after : List (Addr × Item)} {link next : Option Addr}
    (split : nodes this = before ++ (prev, held) :: (addr, item) :: after)
    (here : s.nodes addr = some ⟨item, next⟩) {q' : Queues Id Item}
    (items : q'.items = Function.update q.items this ((before ++ (prev, held) :: after).map Prod.snd))
    (deleted : q.deleted = q'.deleted) (returned : q.returned = q'.returned) :
    (s.dropNext this prev ⟨held, link⟩ addr ⟨item, next⟩).Holds q'
      (Function.update nodes this (before ++ (prev, held) :: after)) := by
  have spells := holds.spells this
  rw [split] at spells
  apply holds.change this rfl (spells.drop_next here)
  · rw [split]
    intro other elsewhere _
    have notPrev : other ≠ prev := by
      rintro rfl
      exact elsewhere (by simp)
    have notAddr : other ≠ addr := by
      rintro rfl
      exact elsewhere (by simp)
    exact (Function.update_of_ne notAddr _ _).trans (Function.update_of_ne notPrev _ _)
  · rw [split]
    intro node member
    have fewer : (before ++ (prev, held) :: after).Sublist
        (before ++ (prev, held) :: (addr, item) :: after) :=
      List.Sublist.append_left (List.Sublist.cons_cons _ (List.sublist_cons_self _ _)) before
    exact .inl (List.mem_map_of_mem (fewer.subset member))
  · exact items
  · exact holds.deleted.trans deleted
  · exact holds.returned.trans returned

end Change

theorem read_node {s : Lists Id Addr Item} {addr : Addr} {node : Node Addr Item}
    (here : s.nodes addr = some node) : s.read (some addr) = .ok node := by
  rw [read, here]

section Operations
variable [DecidableEq Id] [DecidableEq Addr] [DecidableEq Item] {s : Lists Id Addr Item}
  {q : Queues Id Item} {nodes : Id → List (Addr × Item)}

def Does (x : Except ListFault (Lists Id Addr Item)) (q : Queues Id Item) : Prop :=
  ∃ s' nodes', x = .ok s' ∧ s'.Holds q nodes'

omit [DecidableEq Id] [DecidableEq Addr] [DecidableEq Item] in
theorem Holds.new_outside (holds : s.Holds q nodes) (this : Id) {addr : Addr}
    (new : s.nodes addr = none) : addr ∉ (nodes this).map Prod.fst := by
  intro member
  obtain ⟨node, among, rfl⟩ := List.mem_map.mp member
  obtain ⟨next, there⟩ := (holds.spells this).chain.mem_store among
  rw [new] at there
  contradiction

omit [DecidableEq Id] [DecidableEq Addr] [DecidableEq Item] in
theorem new_within (old : List (Addr × Item)) {addr : Addr} (new : s.nodes addr = none)
    (item : Item) :
    ∀ node ∈ old ++ [(addr, item)], node.1 ∈ old.map Prod.fst ∨ s.nodes node.1 = none := by
  intro node member
  rcases List.mem_append.mp member with before | last
  · exact .inl (List.mem_map_of_mem before)
  · rw [List.mem_singleton.mp last]
    exact .inr new

omit [DecidableEq Addr] in
theorem Holds.put_items (holds : s.Holds q nodes) (this : Id) (addr : Addr) (item : Item) :
    (q.step (.put this (some item) addr)).items =
      Function.update q.items this ((nodes this ++ [(addr, item)]).map Prod.snd) := by
  rw [List.map_append, holds.items]
  rfl

theorem put_first_does (holds : s.Holds q nodes) {this : Id} (empty : (s.lists this).first = none)
    {addr : Addr} (new : s.nodes addr = none) (item : Item) :
    Does (s.put this (some item) addr) (q.step (.put this (some item) addr)) := by
  refine ⟨(s.setNode addr (some ⟨item, none⟩)).setList this
    ⟨some addr, some addr, (s.lists this).size + 1⟩, _, ?_,
    holds.change this rfl ((holds.spells this).put_first empty addr item) ?_
      (new_within _ new item) (holds.put_items this addr item) holds.deleted holds.returned⟩
  · simp only [put, if_pos empty]
  · intro other _ there
    apply Function.update_of_ne
    rintro rfl
    exact there new

theorem put_last_does (holds : s.Holds q nodes) {this : Id} {before : List (Addr × Item)}
    {prev : Addr} {old : Item} (split : nodes this = before ++ [(prev, old)]) {addr : Addr}
    (new : s.nodes addr = none) (item : Item) :
    Does (s.put this (some item) addr) (q.step (.put this (some item) addr)) := by
  have spells := holds.spells this
  have outside := holds.new_outside this new
  have within := new_within (nodes this) new item
  have items := holds.put_items this addr item
  have filled : (s.lists this).first ≠ none := by
    rw [spells.chain.first_eq, split]
    simp
  rw [split] at spells outside within items
  have last : (s.lists this).last = some prev := by
    rw [spells.last, List.getLast?_concat]
    rfl
  obtain ⟨next, there⟩ := spells.chain.mem_store (List.mem_append_right before List.mem_cons_self)
  have apart : prev ≠ addr := by
    rintro rfl
    rw [new] at there
    contradiction
  have read_last : (s.setNode addr (some ⟨item, none⟩)).read (some prev) = .ok ⟨old, next⟩ := by
    apply read_node
    exact (Function.update_of_ne apart _ _).trans there
  refine ⟨((s.setNode addr (some ⟨item, none⟩)).setNode prev (some ⟨old, some addr⟩)).setList
    this { s.lists this with last := some addr, size := (s.lists this).size + 1 }, _, ?_,
    holds.change this rfl (spells.put_last outside item) ?_ ?_ items holds.deleted holds.returned⟩
  · simp only [put, if_neg filled, last, read_last]
    rfl
  · rw [split]
    intro other elsewhere there'
    have notPrev : other ≠ prev := by
      rintro rfl
      exact elsewhere (by simp)
    have notNew : other ≠ addr := by
      rintro rfl
      exact there' new
    exact (Function.update_of_ne notPrev _ _).trans (Function.update_of_ne notNew _ _)
  · rw [split]
    exact within

theorem put_does (holds : s.Holds q nodes) (this : Id) (item : Option Item) {addr : Addr}
    (fresh : item ≠ none → s.nodes addr = none) :
    Does (s.put this item addr) (q.step (.put this item addr)) := by
  cases item with
  | none =>
      refine ⟨s, nodes, rfl, ?_⟩
      simpa [Queues.step] using holds
  | some item =>
      have new := fresh (Option.some_ne_none _)
      rcases List.eq_nil_or_concat (nodes this) with empty | ⟨before, ⟨prev, old⟩, split⟩
      · have first : (s.lists this).first = none := by
          rw [(holds.spells this).chain.first_eq, empty]
          rfl
        exact put_first_does holds first new item
      · rw [List.concat_eq_append] at split
        exact put_last_does holds split new item

theorem takeBehind_absent {behind : List (Addr × Item)} {next : Option Addr} {item : Item}
    (chain : Chain s.nodes next behind none) (absent : item ∉ behind.map Prod.snd) (this : Id)
    {turns : Nat} (enough : behind.length < turns) (tmp : Addr) :
    s.takeBehind this item turns tmp next = .ok (none, s) := by
  induction behind generalizing next turns tmp with
  | nil =>
      obtain ⟨turns, rfl⟩ := exists_turn enough
      obtain rfl : next = none := chain
      rfl
  | cons node behind ih =>
      obtain ⟨turns, rfl⟩ := exists_turn enough
      obtain ⟨rfl, next, here, chain⟩ := chain
      obtain ⟨other, absent⟩ := not_or.mp fun among => absent (List.mem_cons.mpr among)
      have rest := ih chain absent (Nat.lt_of_succ_lt_succ enough) node.1
      simp only [takeBehind, read_node here, Bind.bind, Except.bind, if_neg (Ne.symm other)]
      exact rest

/-- The loop stops at the first node with the item, and knows the node before it. -/
theorem takeBehind_found {between after : List (Addr × Item)} {tmp addr : Addr} {old item : Item}
    (chain : Chain s.nodes (some tmp) ((tmp, old) :: between ++ (addr, item) :: after) none)
    (absent : item ∉ between.map Prod.snd) (this : Id) {turns : Nat}
    (enough : between.length < turns) {link : Option Addr}
    (linked : s.nodes tmp = some ⟨old, link⟩) :
    ∃ before prev held next, (tmp, old) :: between = before ++ [(prev, held)] ∧
      s.nodes addr = some ⟨item, next⟩ ∧ s.takeBehind this item turns tmp link =
        .ok (some item, s.dropNext this prev ⟨held, some addr⟩ addr ⟨item, next⟩) := by
  obtain ⟨turns, rfl⟩ := exists_turn enough
  obtain ⟨_, link', here, behind⟩ := chain
  obtain ⟨-, rfl⟩ := Node.mk.inj (Option.some.inj (linked.symm.trans here))
  induction between generalizing tmp old link turns with
  | nil =>
      obtain ⟨rfl, next, there, _⟩ := behind
      refine ⟨[], tmp, old, next, rfl, there, ?_⟩
      simp only [takeBehind, read_node there, read_node here, Bind.bind, Except.bind, if_true]
  | cons node between ih =>
      obtain ⟨rfl, next, there, behind⟩ := behind
      obtain ⟨other, absent⟩ := not_or.mp fun among => absent (List.mem_cons.mpr among)
      have enough := Nat.lt_of_succ_lt_succ enough
      obtain ⟨turns, rfl⟩ := exists_turn enough
      obtain ⟨before, prev, held, next', split, place, done⟩ :=
        ih absent there turns enough rfl there behind
      refine ⟨(tmp, old) :: before, prev, held, next', ?_, place, ?_⟩
      · rw [List.cons_append, ← split]
      · simp only [takeBehind, read_node there, Bind.bind, Except.bind, if_neg (Ne.symm other)]
        exact done

/-- Behind the first node the loop takes out the first one with the item. -/
theorem takeBehind_takes (holds : s.Holds q nodes) {this : Id} {tmp : Addr} {old item : Item}
    {rest : List (Addr × Item)} (split : nodes this = (tmp, old) :: rest) {next : Option Addr}
    (here : s.nodes tmp = some ⟨old, next⟩) (other : old ≠ item)
    (member : item ∈ rest.map Prod.snd) {turns : Nat} (enough : rest.length < turns) :
    ∃ s' nodes', s.takeBehind this item turns tmp next = .ok (some item, s') ∧
      s'.Holds { q with items := Function.update q.items this ((q.items this).erase item) }
        nodes' := by
  have spells := holds.spells this
  have items := holds.items this
  rw [split] at spells items
  have link : (s.lists this).first = some tmp := spells.chain.1
  -- the items before the first occurrence and behind it, and their nodes
  obtain ⟨left, right, absent, apart, erased⟩ := List.exists_erase_eq member
  obtain ⟨between, tail, rfl, rfl, behindItems⟩ := List.map_eq_append_iff.mp apart
  obtain ⟨⟨addr, item'⟩, after, rfl, same, rfl⟩ := List.map_eq_cons_iff.mp behindItems
  obtain rfl : item' = item := same
  have enough' : between.length < turns := by
    rw [List.length_append] at enough
    omega
  obtain ⟨before, prev, held, next', same, place, done⟩ :=
    takeBehind_found (link ▸ spells.chain) absent this enough' here
  have whole : (tmp, old) :: (between ++ (addr, item') :: after) =
      before ++ (prev, held) :: (addr, item') :: after := by
    rw [← List.cons_append, same, List.append_assoc]
    rfl
  have kept : (tmp, old) :: (between ++ after) = before ++ (prev, held) :: after := by
    rw [← List.cons_append, same, List.append_assoc]
    rfl
  refine ⟨_, _, done, holds.dropNext (split.trans whole) place ?_ rfl rfl⟩
  rw [← items, ← kept, List.map_cons, List.map_cons, List.erase_cons_tail (by simpa using other),
    erased, List.map_append]

/-- What `remove` and `get(item)` take out is the first occurrence. -/
theorem takeOut_eq (holds : s.Holds q nodes) (this : Id) (item : Option Item) {turns : Nat}
    (enough : (nodes this).length < turns) :
    ∃ s' nodes', s.takeOut turns this item = .ok ((q.take this item).1, s') ∧
      s'.Holds (q.take this item).2 nodes' := by
  have spells := holds.spells this
  have items := holds.items this
  have first := spells.chain.first_eq
  cases item with
  | none =>
      refine ⟨s, nodes, ?_, holds⟩
      unfold takeOut
      cases (s.lists this).first <;> rfl
  | some item =>
      cases split : nodes this with
      | nil =>
          rw [split] at items first
          have absent : item ∉ q.items this := by
            rw [← items]
            exact List.not_mem_nil
          refine ⟨s, nodes, ?_, ?_⟩
          · simp only [takeOut, first, List.head?_nil, Option.map_none, Queues.take, if_neg absent]
          · rw [Queues.take, if_neg absent]
            exact holds
      | cons node rest =>
          obtain ⟨tmp, old⟩ := node
          rw [split] at spells items first enough
          have longer : rest.length < turns := Nat.lt_of_succ_lt enough
          have link : (s.lists this).first = some tmp := first
          obtain ⟨_, next, here, behind⟩ := spells.chain
          have unfolded : s.takeOut turns this (some item) =
              if old = item then .ok (some old, s.dropFirst this tmp ⟨old, next⟩)
              else s.takeBehind this item turns tmp next := by
            simp only [takeOut, link, read_node here, Bind.bind, Except.bind]
          have among : item ∈ q.items this ↔ old = item ∨ item ∈ rest.map Prod.snd := by
            rw [← items, List.map_cons, List.mem_cons, eq_comm]
          rw [unfolded, Queues.take]
          rcases eq_or_ne old item with rfl | other
          · -- the first node
            rw [if_pos rfl, if_pos (among.mpr (.inl rfl))]
            refine ⟨_, _, rfl, holds.dropFirst split here ?_ rfl rfl⟩
            rw [← items, List.map_cons, List.erase_cons_head]
          · rw [if_neg other]
            by_cases member : item ∈ rest.map Prod.snd
            · -- a later node
              rw [if_pos (among.mpr (.inr member))]
              exact takeBehind_takes holds split here other member longer
            · rw [if_neg fun found => (among.mp found).elim other member]
              exact ⟨s, nodes, takeBehind_absent behind member this longer tmp, holds⟩

omit [DecidableEq Addr] in
theorem take_logs (q : Queues Id Item) (this : Id) (item : Option Item) :
    (q.take this item).2.deleted = q.deleted ∧ (q.take this item).2.returned = q.returned := by
  cases item with
  | none => exact ⟨rfl, rfl⟩
  | some item => by_cases found : item ∈ q.items this <;> simp [Queues.take, found]

theorem remove_does (holds : s.Holds q nodes) (this : Id) (item : Option Item) {turns : Nat}
    (enough : (nodes this).length < turns) :
    Does (s.remove turns this item) (q.step (.remove this item : ListOp Id Addr Item)) := by
  obtain ⟨s', nodes', taken, holds'⟩ := takeOut_eq holds this item enough
  refine ⟨{ s' with deleted := s'.deleted ++ (q.take this item).1.toList }, nodes', ?_, ?_⟩
  · rw [remove, taken]
    rfl
  · refine ⟨holds'.spells, holds'.apart, holds'.items, ?_, holds'.returned⟩
    rw [holds'.deleted, (take_logs q this item).1]
    rfl

theorem getItem_does (holds : s.Holds q nodes) (this : Id) (item : Option Item) {turns : Nat}
    (enough : (nodes this).length < turns) :
    Does (s.getItem turns this item) (q.step (.getItem this item : ListOp Id Addr Item)) := by
  obtain ⟨s', nodes', taken, holds'⟩ := takeOut_eq holds this item enough
  refine ⟨s'.giveBack (q.take this item).1, nodes', ?_, ?_⟩
  · rw [getItem, taken]
    rfl
  · refine ⟨holds'.spells, holds'.apart, holds'.items, holds'.deleted, ?_⟩
    rw [giveBack, holds'.returned, (take_logs q this item).2]
    rfl

theorem get_does (holds : s.Holds q nodes) (this : Id) (fits : (q.items this).length < 2 ^ 31) :
    Does (s.get this) (q.step (.get this : ListOp Id Addr Item)) := by
  have spells := holds.spells this
  have items := holds.items this
  rw [← holds.length] at fits
  have counted := spells.size_eq_zero fits
  cases split : nodes this with
  | nil =>
      rw [split] at items
      refine ⟨s.giveBack none, nodes, ?_, holds.spells, holds.apart, ?_, holds.deleted, ?_⟩
      · simp only [get, if_pos (counted.mpr split)]
      · have empty : q.items this = [] := items.symm
        have same : Function.update q.items this (q.items this).tail = q.items := by
          rw [empty, List.tail_nil, ← empty, Function.update_eq_self]
        intro other
        rw [Queues.step, same, holds.items]
      · rw [Queues.step, ← items, giveBack, holds.returned]
        rfl
  | cons node rest =>
      obtain ⟨tmp, item⟩ := node
      have filled : (s.lists this).size ≠ 0 := fun zero => by
        have empty := counted.mp zero
        rw [split] at empty
        contradiction
      rw [split] at spells items
      have first : (s.lists this).first = some tmp := spells.chain.1
      have one := spells.first_eq_last
      obtain ⟨_, next, here, behind⟩ := spells.chain
      -- both branches do what the deletion of the first node does elsewhere
      have dropped : s.get this = .ok ((s.dropFirst this tmp ⟨item, next⟩).giveBack (some item)) := by
        unfold get
        rw [if_neg filled]
        by_cases only : rest = []
        · subst only
          obtain rfl : next = none := behind
          rw [if_pos (one.mpr rfl), first, read_node here]
          rfl
        · have more : next ≠ none := by
            rw [behind.first_eq]
            simpa using only
          rw [if_neg fun same => only (one.mp same), first, read_node here]
          simp only [Bind.bind, Except.bind, dropFirst, deleteNode, if_neg more]
      have holds' : Holds _ { q with items := Function.update q.items this (rest.map Prod.snd) } _ :=
        holds.dropFirst split here rfl rfl rfl
      refine ⟨_, _, dropped, holds'.spells, holds'.apart, ?_, holds'.deleted, ?_⟩
      · intro other
        rw [holds'.items, Queues.step, ← items]
        rfl
      · rw [giveBack, holds'.returned, Queues.step, ← items]
        rfl

omit [DecidableEq Item] in
/-- The loop of `clear` empties the chain; `last` and `size` are set behind it. -/
theorem clearNodes_eq {cells : List (Addr × Item)} {this : Id}
    (chain : Chain s.nodes (s.lists this).first cells none) {turns : Nat}
    (enough : cells.length < turns) :
    ∃ s', clearNodes this turns s = .ok s' ∧
      s'.lists = Function.update s.lists this { s.lists this with first := none } ∧
      (∀ addr, addr ∉ cells.map Prod.fst → s'.nodes addr = s.nodes addr) ∧
      s'.deleted = s.deleted ++ cells.map Prod.snd ∧ s'.returned = s.returned := by
  induction cells generalizing s turns with
  | nil =>
      obtain ⟨turns, rfl⟩ := exists_turn enough
      have first : (s.lists this).first = none := chain
      refine ⟨s, ?_, ?_, fun _ _ => rfl, ?_, rfl⟩
      · simp only [clearNodes, first]
      · rw [← first]
        exact (Function.update_eq_self this s.lists).symm
      · exact (List.append_nil _).symm
  | cons node cells ih =>
      obtain ⟨turns, rfl⟩ := exists_turn enough
      obtain ⟨first, next, here, behind⟩ := id chain
      have first' : (s.lists this).first = some node.1 := first
      have shorter := (first' ▸ chain).erase_first here
      have outside := (List.nodup_cons.mp chain.nodup).1
      -- what one turn leaves
      let s₁ : Lists Id Addr Item := { (s.setNode node.1 none).setList this
        { s.lists this with first := next } with deleted := s.deleted ++ [node.2] }
      have list₁ : s₁.lists this = { s.lists this with first := next } := Function.update_self ..
      obtain ⟨s', done, lists, kept, deleted, returned⟩ := ih (s := s₁)
        (by rw [list₁]; exact shorter) (Nat.lt_of_succ_lt_succ enough)
      refine ⟨s', ?_, ?_, fun addr elsewhere => ?_, ?_, returned⟩
      · simp only [clearNodes, first', read_node here, Bind.bind, Except.bind]
        exact done
      · rw [lists, list₁]
        exact Function.update_idem ..
      · obtain ⟨other, elsewhere⟩ := not_or.mp fun among => elsewhere (List.mem_cons.mpr among)
        rw [kept addr elsewhere]
        exact Function.update_of_ne other _ _
      · rw [deleted, List.map_cons]
        exact List.append_assoc ..

theorem clear_does (holds : s.Holds q nodes) (this : Id) {turns : Nat}
    (enough : (nodes this).length < turns) :
    Does (s.clear turns this) (q.step (.clear this : ListOp Id Addr Item)) := by
  obtain ⟨s', done, lists, kept, deleted, returned⟩ :=
    clearNodes_eq (holds.spells this).chain enough
  have emptied : PointerList.Spells
      (s'.setList this { s'.lists this with last := none, size := 0 }).nodes ⟨none, none, 0⟩
      ([] : List (Addr × Item)) := ⟨rfl, rfl, rfl⟩
  refine ⟨s'.setList this { s'.lists this with last := none, size := 0 },
    Function.update nodes this [], ?_, ?_⟩
  · rw [clear, done]
    rfl
  · apply holds.change this _ emptied
    · exact fun addr elsewhere _ => kept addr elsewhere
    · exact fun _ member => absurd member List.not_mem_nil
    · rfl
    · change s'.deleted = q.deleted ++ q.items this
      rw [deleted, holds.deleted, holds.items]
    · exact returned.trans holds.returned
    · rw [setList, lists, Function.update_self]
      exact Function.update_idem ..

omit [DecidableEq Addr] [DecidableEq Item] in
/-- The six assignments exchange the lists, one with itself included. -/
theorem swap_eq (s : Lists Id Addr Item) (this other : Id) :
    s.swap this other = { s with lists := s.lists ∘ Equiv.swap this other } := by
  rcases eq_or_ne this other with rfl | differs
  · simp [swap, setList]
  · simp only [swap, setList]
    congr 1
    funext l
    rcases eq_or_ne l other with rfl | notOther
    · simp [differs, differs.symm]
    · rcases eq_or_ne l this with rfl | notThis
      · simp [differs, differs.symm]
      · simp [Equiv.swap_apply_of_ne_of_ne notThis notOther, notThis, notOther]

omit [DecidableEq Addr] in
theorem swap_does (holds : s.Holds q nodes) (this other : Id) :
    Does (.ok (s.swap this other)) (q.step (.swap this other : ListOp Id Addr Item)) := by
  refine ⟨_, nodes ∘ Equiv.swap this other, rfl, ?_⟩
  rw [swap_eq]
  constructor
  · exact fun l => holds.spells _
  · exact fun l m differs => holds.apart _ _ ((Equiv.swap this other).injective.ne differs)
  · exact fun l => holds.items _
  · exact holds.deleted
  · exact holds.returned

/-- What has to hold of a call: the address that `new` returns is free, and `get()` finds
a size that an `int` can count. -/
def Admits (s : Lists Id Addr Item) (q : Queues Id Item) : ListOp Id Addr Item → Prop
  | .put _ item addr => item ≠ none → s.nodes addr = none
  | .get this => (q.items this).length < 2 ^ 31
  | _ => True

theorem step_does (holds : s.Holds q nodes) {turns : Nat} {op : ListOp Id Addr Item}
    (admits : s.Admits q op) (enough : ∀ this, (nodes this).length < turns) :
    Does (s.step turns op) (q.step op) := by
  cases op with
  | put this item addr => exact put_does holds this item admits
  | get this => exact get_does holds this admits
  | getItem this item => exact getItem_does holds this item (enough this)
  | remove this item => exact remove_does holds this item (enough this)
  | clear this => exact clear_does holds this (enough this)
  | swap this other => exact swap_does holds this other

end Operations
end Lists
end Battleship
