import Battleship.Library.NodeChain
import Battleship.Library.Runs

/-! The list of core/list.h with its nodes in memory. Any number of lists share the
memory; reading a node that was deleted is a fault, and so is reading through a null link.
A list is the first-in first-out sequence of its items as long as `size` can count them. -/
namespace Battleship

open NodeChain Runs

structure PointerList (Addr : Type) where
  first : Option Addr
  last : Option Addr
  size : Int32

inductive ListFault where
  | erasedNode
  | nullNode
  | running
  deriving DecidableEq, Repr

/-- The lists and the nodes of them all. `deleted` are the items that were deleted with
their nodes, `returned` the pointers that the calls of `get` have returned. -/
structure Lists (Id Addr Item : Type) where
  nodes : Addr → Option (Node Addr Item)
  lists : Id → PointerList Addr
  deleted : List Item
  returned : List (Option Item)

/-- The calls. The address of `put` is the one that `new` returns, where it is called. -/
inductive ListOp (Id Addr Item : Type) where
  | put (this : Id) (item : Option Item) (addr : Addr)
  | get (this : Id)
  | getItem (this : Id) (item : Option Item)
  | remove (this : Id) (item : Option Item)
  | clear (this : Id)
  | swap (this other : Id)

variable {Id Addr Item : Type}

section Calls
variable [DecidableEq Id] [DecidableEq Addr] [DecidableEq Item]

namespace Lists

/-- Every list as its constructor leaves it. -/
def init : Lists Id Addr Item := ⟨fun _ => none, fun _ => ⟨none, none, 0⟩, [], []⟩

def read (s : Lists Id Addr Item) : Option Addr → Except ListFault (Node Addr Item)
  | none => .error .nullNode
  | some addr =>
      match s.nodes addr with
      | none => .error .erasedNode
      | some node => .ok node

def setList (s : Lists Id Addr Item) (this : Id) (list : PointerList Addr) : Lists Id Addr Item :=
  { s with lists := Function.update s.lists this list }

def setNode (s : Lists Id Addr Item) (addr : Addr) (node : Option (Node Addr Item)) :
    Lists Id Addr Item :=
  { s with nodes := Function.update s.nodes addr node }

def giveBack (s : Lists Id Addr Item) (item : Option Item) : Lists Id Addr Item :=
  { s with returned := s.returned ++ [item] }

def put (s : Lists Id Addr Item) (this : Id) (item : Option Item) (addr : Addr) :
    Except ListFault (Lists Id Addr Item) :=
  match item with
  | none => .ok s
  | some item =>
      let list := s.lists this
      if list.first = none then
        .ok ((s.setNode addr (some ⟨item, none⟩)).setList this
          ⟨some addr, some addr, list.size + 1⟩)
      else
        let s := s.setNode addr (some ⟨item, none⟩)
        match list.last with
        | none => .error .nullNode
        | some last => do
            let node ← s.read (some last)
            .ok ((s.setNode last (some ⟨node.item, some addr⟩)).setList this
              { list with last := some addr, size := list.size + 1 })

/-- The first node is the one: `first` moves on, and `last` is null behind the only one. -/
def dropFirst (s : Lists Id Addr Item) (this : Id) (tmp : Addr) (node : Node Addr Item) :
    Lists Id Addr Item :=
  let list := s.lists this
  (s.setNode tmp none).setList this
    ⟨node.next, if node.next = none then none else list.last, list.size - 1⟩

/-- `next` is the one: `tmp->next` moves on, and `last` moves back from the last one. -/
def dropNext (s : Lists Id Addr Item) (this : Id) (tmp : Addr) (before : Node Addr Item)
    (next : Addr) (node : Node Addr Item) : Lists Id Addr Item :=
  let list := s.lists this
  ((s.setNode tmp (some ⟨before.item, node.next⟩)).setNode next none).setList this
    { list with
      last := if list.last = some next then some tmp else list.last
      size := list.size - 1 }

def takeBehind (s : Lists Id Addr Item) (this : Id) (item : Item) :
    Nat → Addr → Option Addr → Except ListFault (Option Item × Lists Id Addr Item)
  | 0, _, _ => .error .running
  | _ + 1, _, none => .ok (none, s)
  | turns + 1, tmp, some next => do
      let node ← s.read (some next)
      if node.item = item then do
        let before ← s.read (some tmp)
        .ok (some node.item, s.dropNext this tmp before next node)
      else s.takeBehind this item turns next node.next

/-- What `remove` and `get(item)` share: the item that was found and the list without
its node. -/
def takeOut (s : Lists Id Addr Item) (turns : Nat) (this : Id) (item : Option Item) :
    Except ListFault (Option Item × Lists Id Addr Item) :=
  match (s.lists this).first, item with
  | some tmp, some item => do
      let node ← s.read (some tmp)
      if node.item = item then .ok (some node.item, s.dropFirst this tmp node)
      else s.takeBehind this item turns tmp node.next
  | _, _ => .ok (none, s)

def remove (s : Lists Id Addr Item) (turns : Nat) (this : Id) (item : Option Item) :
    Except ListFault (Lists Id Addr Item) := do
  let (found, s) ← s.takeOut turns this item
  .ok { s with deleted := s.deleted ++ found.toList }

def getItem (s : Lists Id Addr Item) (turns : Nat) (this : Id) (item : Option Item) :
    Except ListFault (Lists Id Addr Item) := do
  let (found, s) ← s.takeOut turns this item
  .ok (s.giveBack found)

/-- `delete` of a link; of a null one it does nothing. -/
def deleteNode (s : Lists Id Addr Item) : Option Addr → Lists Id Addr Item
  | none => s
  | some addr => s.setNode addr none

def get (s : Lists Id Addr Item) (this : Id) : Except ListFault (Lists Id Addr Item) :=
  let list := s.lists this
  if list.size = 0 then .ok (s.giveBack none)
  else if list.first = list.last then do
    let node ← s.read list.first
    .ok (((s.deleteNode list.first).setList this ⟨none, none, list.size - 1⟩).giveBack
      (some node.item))
  else do
    let node ← s.read list.first
    .ok (((s.deleteNode list.first).setList this
      { list with first := node.next, size := list.size - 1 }).giveBack (some node.item))

def clearNodes (this : Id) : Nat → Lists Id Addr Item → Except ListFault (Lists Id Addr Item)
  | 0, _ => .error .running
  | turns + 1, s =>
      let list := s.lists this
      match list.first with
      | none => .ok s
      | some tmp => do
          let node ← s.read (some tmp)
          let s := (s.setNode tmp none).setList this { list with first := node.next }
          clearNodes this turns { s with deleted := s.deleted ++ [node.item] }

def clear (s : Lists Id Addr Item) (turns : Nat) (this : Id) :
    Except ListFault (Lists Id Addr Item) := do
  let s ← clearNodes this turns s
  .ok (s.setList this { s.lists this with last := none, size := 0 })

def swap (s : Lists Id Addr Item) (this other : Id) : Lists Id Addr Item :=
  let tmpFirst := (s.lists this).first
  let s := s.setList this { s.lists this with first := (s.lists other).first }
  let s := s.setList other { s.lists other with first := tmpFirst }
  let tmpLast := (s.lists this).last
  let s := s.setList this { s.lists this with last := (s.lists other).last }
  let s := s.setList other { s.lists other with last := tmpLast }
  let tmpSize := (s.lists this).size
  let s := s.setList this { s.lists this with size := (s.lists other).size }
  s.setList other { s.lists other with size := tmpSize }

def step (turns : Nat) (s : Lists Id Addr Item) :
    ListOp Id Addr Item → Except ListFault (Lists Id Addr Item)
  | .put this item addr => s.put this item addr
  | .get this => s.get this
  | .getItem this item => s.getItem turns this item
  | .remove this item => s.remove turns this item
  | .clear this => s.clear turns this
  | .swap this other => .ok (s.swap this other)

/-- The calls in turn, with a bound on the turns of each loop. -/
abbrev run (turns : Nat) :
    Lists Id Addr Item → List (ListOp Id Addr Item) → Except ListFault (Lists Id Addr Item) :=
  Runs.run (step turns)

def containsFrom (s : Lists Id Addr Item) (item : Option Item) :
    Nat → Option Addr → Except ListFault Bool
  | 0, _ => .error .running
  | _ + 1, none => .ok false
  | turns + 1, some tmp => do
      let node ← s.read (some tmp)
      if some node.item = item then .ok true else s.containsFrom item turns node.next

def contains (s : Lists Id Addr Item) (turns : Nat) (this : Id) (item : Option Item) :
    Except ListFault Bool :=
  s.containsFrom item turns (s.lists this).first

def getSize (s : Lists Id Addr Item) (this : Id) : Int32 := (s.lists this).size

def isEmpty (s : Lists Id Addr Item) (this : Id) : Bool := decide (s.getSize this = 0)

def itemFrom (s : Lists Id Addr Item) (idx : Int32) :
    Nat → Int32 → Option Addr → Except ListFault (Option Item)
  | 0, _, _ => .error .running
  | _ + 1, _, none => .ok none
  | turns + 1, i, some tmp => do
      let node ← s.read (some tmp)
      if i = idx then .ok (some node.item) else s.itemFrom idx turns (i + 1) node.next

def itemAt (s : Lists Id Addr Item) (turns : Nat) (this : Id) (idx : Int32) :
    Except ListFault (Option Item) :=
  if idx < 0 ∨ idx ≥ (s.lists this).size then .ok none
  else s.itemFrom idx turns 0 (s.lists this).first

end Lists

structure Queues (Id Item : Type) where
  items : Id → List Item
  deleted : List Item
  returned : List (Option Item)

namespace Queues

def init : Queues Id Item := ⟨fun _ => [], [], []⟩

/-- The first occurrence is deleted; what there was of it. -/
def take (q : Queues Id Item) (this : Id) (item : Option Item) : Option Item × Queues Id Item :=
  match item with
  | none => (none, q)
  | some item =>
      if item ∈ q.items this then
        (some item, { q with items := Function.update q.items this ((q.items this).erase item) })
      else (none, q)

def step (q : Queues Id Item) : ListOp Id Addr Item → Queues Id Item
  | .put this item _ =>
      { q with items := Function.update q.items this (q.items this ++ item.toList) }
  | .get this =>
      { q with
        items := Function.update q.items this (q.items this).tail
        returned := q.returned ++ [(q.items this).head?] }
  | .getItem this item =>
      { (q.take this item).2 with returned := q.returned ++ [(q.take this item).1] }
  | .remove this item =>
      { (q.take this item).2 with deleted := q.deleted ++ (q.take this item).1.toList }
  | .clear this =>
      { q with
        items := Function.update q.items this []
        deleted := q.deleted ++ q.items this }
  | .swap this other => { q with items := q.items ∘ Equiv.swap this other }

def after (ops : List (ListOp Id Addr Item)) : Queues Id Item := ops.foldl step init

end Queues
end Calls

/-- The chain from `first` has these nodes, `last` is the last of them, and `size` is their
number as far as an `int` goes. -/
structure PointerList.Spells (store : Addr → Option (Node Addr Item)) (list : PointerList Addr)
    (nodes : List (Addr × Item)) : Prop where
  chain : Chain store list.first nodes none
  last : list.last = nodes.getLast?.map Prod.fst
  size : list.size = Int32.ofNat nodes.length

section Spells
variable {store : Addr → Option (Node Addr Item)} {list : PointerList Addr}
  {nodes rest : List (Addr × Item)} {addr : Addr} {item : Item} {next : Option Addr}

/-- `get()` tells the only node from the first of several. -/
theorem PointerList.Spells.first_eq_last (spells : list.Spells store ((addr, item) :: rest)) :
    list.first = list.last ↔ rest = [] := by
  have first : list.first = some addr := spells.chain.1
  rw [first, spells.last]
  have nodup := spells.chain.nodup
  rcases List.eq_nil_or_concat rest with rfl | ⟨between, final, rfl⟩
  · simp
  · have other : addr ≠ final.1 := by
      rintro rfl
      simp at nodup
    have split : (addr, item) :: between.concat final = ((addr, item) :: between) ++ [final] := by
      simp
    rw [split, List.getLast?_concat]
    simp [other]

theorem PointerList.Spells.size_eq_zero (spells : list.Spells store nodes)
    (fits : nodes.length < 2 ^ 31) : list.size = 0 ↔ nodes = [] := by
  rw [spells.size, ← List.length_eq_zero_iff, ← Int32.toInt_inj, Int32.toInt_ofNat_of_lt fits]
  exact Int.natCast_eq_zero

variable [DecidableEq Addr]

theorem ofNat_succ_sub (n : Nat) : Int32.ofNat (n + 1) - 1 = Int32.ofNat n := by
  rw [Int32.ofNat_add]
  exact Int32.add_sub_cancel _ _

theorem PointerList.Spells.put_first (spells : list.Spells store nodes) (empty : list.first = none)
    (addr : Addr) (item : Item) :
    PointerList.Spells (Function.update store addr (some ⟨item, none⟩))
      ⟨some addr, some addr, list.size + 1⟩ (nodes ++ [(addr, item)]) := by
  have none_there : nodes = [] := by
    cases nodes with
    | nil => rfl
    | cons node rest => cases empty.symm.trans spells.chain.1
  subst none_there
  constructor
  · exact Chain.cons (Function.update_self ..) rfl
  · rfl
  · rw [spells.size]
    rfl

theorem PointerList.Spells.put_last {before : List (Addr × Item)} {prev : Addr} {old : Item}
    (spells : list.Spells store (before ++ [(prev, old)]))
    (outside : addr ∉ (before ++ [(prev, old)]).map Prod.fst) (item : Item) :
    PointerList.Spells (Function.update (Function.update store addr (some ⟨item, none⟩)) prev
        (some ⟨old, some addr⟩))
      { list with last := some addr, size := list.size + 1 }
      (before ++ [(prev, old)] ++ [(addr, item)]) := by
  constructor
  · exact spells.chain.snoc outside
  · simp
  · rw [List.length_append, Int32.ofNat_add, ← spells.size]
    rfl

theorem PointerList.Spells.drop_first (spells : list.Spells store ((addr, item) :: rest))
    (here : store addr = some ⟨item, next⟩) :
    PointerList.Spells (Function.update store addr none)
      ⟨next, if next = none then none else list.last, list.size - 1⟩ rest := by
  have behind := spells.chain.erase_first here
  constructor
  · exact behind
  · cases rest with
    | nil =>
        obtain rfl : next = none := behind
        rfl
    | cons node rest =>
        obtain rfl : next = some node.1 := behind.1
        rw [if_neg (Option.some_ne_none _), spells.last, List.getLast?_cons_cons]
  · rw [spells.size, List.length_cons]
    exact ofNat_succ_sub _

theorem PointerList.Spells.drop_next {before after : List (Addr × Item)} {prev : Addr} {old : Item}
    (spells : list.Spells store (before ++ (prev, old) :: (addr, item) :: after))
    (here : store addr = some ⟨item, next⟩) :
    PointerList.Spells (Function.update (Function.update store prev (some ⟨old, next⟩)) addr none)
      { list with
        last := if list.last = some addr then some prev else list.last
        size := list.size - 1 }
      (before ++ (prev, old) :: after) := by
  constructor
  · exact spells.chain.erase_behind here
  · dsimp only
    have nodup := spells.chain.nodup
    rw [spells.last]
    rcases List.eq_nil_or_concat after with rfl | ⟨between, final, rfl⟩
    · simp
    · -- the node is not the last one
      have other : final.1 ≠ addr := by
        rintro rfl
        simp [List.nodup_append] at nodup
      have split : before ++ (prev, old) :: (addr, item) :: between.concat final =
          (before ++ (prev, old) :: (addr, item) :: between) ++ [final] := by simp
      have split' : before ++ (prev, old) :: between.concat final =
          (before ++ (prev, old) :: between) ++ [final] := by simp
      rw [split, split', List.getLast?_concat, List.getLast?_concat]
      exact if_neg fun same => other (Option.some.inj same)
  · have less : (before ++ (prev, old) :: (addr, item) :: after).length =
        (before ++ (prev, old) :: after).length + 1 := by
      simp only [List.length_append, List.length_cons]
      omega
    rw [spells.size, less]
    exact ofNat_succ_sub _

end Spells

end Battleship
