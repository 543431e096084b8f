import Battleship.Library.NodeChain
import Battleship.Outgoing

/-! The delivery control of core/msg_delivery_control.cpp with its list nodes in memory.
Reading a node that was deleted is a fault, and so is reading through a null link. The
list of `Outgoing` is what the nodes from `last` on hold. -/
namespace Battleship

open NodeChain Runs

abbrev NodeRef := Nat

inductive NodeFault where
  | erasedNode
  | nullNode
  | deletedMsg
  | running
  deriving DecidableEq, Repr

/-- `MsgDeliveryControl`, the nodes of its list and the messages they point to. -/
structure MsgDeliveryControl where
  last : Option NodeRef
  size : Int
  resendCnt : Int
  resendTime : Int
  nodes : NodeRef → Option (Node NodeRef ListItem)
  objects : MsgRef → Option Message

namespace MsgDeliveryControl

def read (control : MsgDeliveryControl) : Option NodeRef → Except NodeFault (Node NodeRef ListItem)
  | none => .error .nullNode
  | some ref =>
      match control.nodes ref with
      | none => .error .erasedNode
      | some node => .ok node

def setNext (control : MsgDeliveryControl) (prev : NodeRef) (node : Node NodeRef ListItem)
    (next : Option NodeRef) : MsgDeliveryControl :=
  { control with nodes := Function.update control.nodes prev (some ⟨node.item, next⟩) }

/-- `while(prev->next != item) { prev = prev->next; }`. -/
def findPrev (control : MsgDeliveryControl) (item : NodeRef) :
    Nat → Option NodeRef → Except NodeFault NodeRef
  | 0, _ => .error .running
  | turns + 1, link => do
      let node ← control.read link
      if node.next = some item then
        match link with
        | none => .error .nullNode
        | some prev => .ok prev
      else control.findPrev item turns node.next

/-- Takes the item out of the links: at `last`, behind it or further on. -/
def unlink (control : MsgDeliveryControl) (turns : Nat) (item : NodeRef)
    (node : Node NodeRef ListItem) : Except NodeFault MsgDeliveryControl := do
  let first ← control.read control.last
  if control.last = some item then .ok { control with last := first.next }
  else if first.next = some item then
    match control.last with
    | none => .error .nullNode
    | some last => .ok (control.setNext last first node.next)
  else do
    let prev ← control.findPrev item turns control.last
    let before ← control.read (some prev)
    .ok (control.setNext prev before node.next)

/-- `delete item->msg`, the unlinking, `delete item` and `--size`. -/
def removeMsg (control : MsgDeliveryControl) (turns : Nat) (item : NodeRef) :
    Except NodeFault MsgDeliveryControl := do
  let node ← control.read (some item)
  let control := { control with objects := Function.update control.objects node.item.msg none }
  let control ← control.unlink turns item node
  .ok { control with
    nodes := Function.update control.nodes item none
    size := control.size - 1 }

def needResend (control : MsgDeliveryControl) (item : ListItem) (curTime : Int) : Bool :=
  decide (0 < item.resendCnt ∧ control.resendTime < curTime - item.lastSendTime)

/-- The loop of `resend`, which puts the messages that are due into `ret`. -/
def putDue (control : MsgDeliveryControl) (curTime : Int) :
    Nat → Option NodeRef → List MsgRef → Except NodeFault (List MsgRef)
  | 0, _, _ => .error .running
  | _ + 1, none, ret => .ok ret
  | turns + 1, some tmp, ret => do
      let node ← control.read (some tmp)
      let ret := if control.needResend node.item curTime then ret ++ [node.item.msg] else ret
      control.putDue curTime turns node.next ret

/-- The loop of `_rm_all_exhausted`: `tmp->next` is read when `tmp` may be deleted. -/
def rmAllExhausted : Nat → MsgDeliveryControl → Option NodeRef →
    Except NodeFault MsgDeliveryControl
  | 0, _, _ => .error .running
  | _ + 1, control, none => .ok control
  | turns + 1, control, some tmp => do
      let node ← control.read (some tmp)
      let control ←
        if node.item.resendCnt ≤ 0 then control.removeMsg turns tmp else .ok control
      let node ← control.read (some tmp)
      rmAllExhausted turns control node.next

def resend (control : MsgDeliveryControl) (turns : Nat) (curTime : Int) (ret : List MsgRef) :
    Except NodeFault (List MsgRef × MsgDeliveryControl) := do
  let ret ← control.putDue curTime turns control.last ret
  let control ← rmAllExhausted turns control control.last
  .ok (ret, control)

def find (control : MsgDeliveryControl) (id : Int64) :
    Nat → Option NodeRef → Except NodeFault (Option NodeRef)
  | 0, _ => .error .running
  | _ + 1, none => .ok none
  | turns + 1, some tmp => do
      let node ← control.read (some tmp)
      match control.objects node.item.msg with
      | none => .error .deletedMsg
      | some msg => if msg.id = id then .ok (some tmp) else control.find id turns node.next

def processCheck (control : MsgDeliveryControl) (turns : Nat) (reqMsgId : Int64) :
    Except NodeFault (Bool × MsgDeliveryControl) := do
  match ← control.find reqMsgId turns control.last with
  | none => .ok (false, control)
  | some item => .ok (true, ← control.removeMsg turns item)

/-- The nodes from `last` on hold the items, and `size` is their number. -/
structure Holds (control : MsgDeliveryControl) (nodes : List (NodeRef × ListItem)) : Prop where
  chain : Chain control.nodes control.last nodes none
  size : control.size = nodes.length

section Reading
variable {control : MsgDeliveryControl} {ref : NodeRef} {item : ListItem} {next : Option NodeRef}

theorem read_node (here : control.nodes ref = some ⟨item, next⟩) :
    control.read (some ref) = .ok ⟨item, next⟩ := by
  rw [read, here]

theorem read_erased (erased : control.nodes ref = none) :
    control.read (some ref) = .error .erasedNode := by
  rw [read, erased]

end Reading

/-- The loop of `_remove_msg` stops at the node before the one to remove. -/
theorem findPrev_eq {control : MsgDeliveryControl} {before after : List (NodeRef × ListItem)}
    {prev addr : NodeRef} {i j : ListItem} {link : Option NodeRef} {turns : Nat}
    (chain : Chain control.nodes link (before ++ (prev, i) :: (addr, j) :: after) none)
    (enough : before.length < turns) : control.findPrev addr turns link = .ok prev := by
  induction before generalizing link turns with
  | nil =>
      obtain ⟨rfl, next, here, rfl, _⟩ := chain
      obtain ⟨turns, rfl⟩ := exists_turn enough
      simp [findPrev, read_node here, Bind.bind, Except.bind]
  | cons node before ih =>
      obtain ⟨rfl, next, here, behind⟩ := chain
      obtain ⟨turns, rfl⟩ := exists_turn enough
      -- the node before `addr` is the only one that leads to it
      have elsewhere : next ≠ some addr := behind.first_ne
      rw [findPrev, read_node here]
      simpa [Bind.bind, Except.bind, elsewhere] using
        ih behind (Nat.lt_of_succ_lt_succ enough)

structure Removed (control : MsgDeliveryControl) (nodes : List (NodeRef × ListItem))
    (addr : NodeRef) (item : ListItem) (control' : MsgDeliveryControl) : Prop where
  holds : control'.Holds nodes
  erased : control'.nodes addr = none
  objects : control'.objects = Function.update control.objects item.msg none
  resendCnt : control'.resendCnt = control.resendCnt
  resendTime : control'.resendTime = control.resendTime

/-- A node at any place of the list is unlinked, and the others stay in their order. -/
theorem removeMsg_removed {control : MsgDeliveryControl} {before after : List (NodeRef × ListItem)}
    {addr : NodeRef} {item : ListItem} (holds : control.Holds (before ++ (addr, item) :: after))
    {turns : Nat} (enough : before.length < turns) :
    ∃ control', control.removeMsg turns addr = .ok control' ∧
      control.Removed (before ++ after) addr item control' := by
  obtain ⟨chain, size⟩ := holds
  obtain ⟨_, _, rfl, next, here, behind⟩ := chain_append.mp chain
  have less : control.size - 1 = ((before ++ after).length : Int) := by
    rw [size]
    simp only [List.length_append, List.length_cons]
    omega
  rcases List.eq_nil_or_concat before with rfl | ⟨before, ⟨prev, i⟩, rfl⟩
  · -- the first node: `last` moves on
    have chain' : Chain control.nodes control.last ((addr, item) :: after) none := chain
    have first : control.last = some addr := chain'.1
    refine ⟨{ control with
      last := next
      size := control.size - 1
      nodes := Function.update control.nodes addr none
      objects := Function.update control.objects item.msg none }, ?_,
      ⟨chain'.erase_first here, less⟩, Function.update_self .., rfl, rfl, rfl⟩
    simp [removeMsg, unlink, read, first, here, Bind.bind, Except.bind]
  · -- a later node: the link of the one before it moves on
    have split : before.concat (prev, i) ++ (addr, item) :: after =
        before ++ (prev, i) :: (addr, item) :: after := by simp
    rw [split] at chain
    have less' : control.size - 1 = ((before ++ (prev, i) :: after).length : Int) := by
      simpa using less
    have chain' := chain.erase_behind here
    have rest : before.concat (prev, i) ++ after = before ++ (prev, i) :: after := by simp
    rw [rest]
    refine ⟨{ control with
      size := control.size - 1
      nodes := Function.update (Function.update control.nodes prev (some ⟨i, next⟩)) addr none
      objects := Function.update control.objects item.msg none }, ?_,
      ⟨chain', less'⟩, Function.update_self .., rfl, rfl, rfl⟩
    have other : control.last ≠ some addr := chain.first_ne
    obtain ⟨_, chainBefore, rfl, _, prevHere, rfl, _⟩ := chain_append.mp chain
    cases before with
    | nil =>
        have first : control.last = some prev := chainBefore
        rw [first] at other
        simp [removeMsg, unlink, read, here, first, prevHere, other, setNext, Bind.bind, Except.bind]
    | cons node before =>
        have found := @findPrev_eq
          { control with objects := Function.update control.objects item.msg none } _ _ _ _ _ _ _
          turns chain (by simpa using Nat.lt_of_succ_lt enough)
        obtain ⟨first, _, nodeHere, behind⟩ := chain
        have elsewhere := behind.first_ne
        rw [first] at other found
        simp [removeMsg, unlink, read, here, first, nodeHere, prevHere, other, elsewhere, found, setNext,
          Bind.bind, Except.bind]

theorem removeMsg_erases {control control' : MsgDeliveryControl} {turns : Nat} {item : NodeRef}
    (done : control.removeMsg turns item = .ok control') : control'.nodes item = none := by
  obtain ⟨_, _, done⟩ := bind_ok done
  obtain ⟨_, _, done⟩ := bind_ok done
  obtain rfl := Except.ok.inj done
  exact Function.update_self ..

def due (control : MsgDeliveryControl) (curTime : Int) (nodes : List (NodeRef × ListItem)) :
    List MsgRef :=
  (nodes.filter fun node => control.needResend node.2 curTime).map fun node => node.2.msg

/-- The loop puts the messages that are due behind those in `ret`. -/
theorem putDue_eq {control : MsgDeliveryControl} {nodes : List (NodeRef × ListItem)}
    {link : Option NodeRef} (chain : Chain control.nodes link nodes none) (curTime : Int)
    {turns : Nat} (enough : nodes.length < turns) (ret : List MsgRef) :
    control.putDue curTime turns link ret = .ok (ret ++ control.due curTime nodes) := by
  induction nodes generalizing link turns ret with
  | nil =>
      obtain ⟨turns, rfl⟩ := exists_turn enough
      obtain rfl : link = none := chain
      simp [putDue, due]
  | cons node nodes ih =>
      obtain ⟨turns, rfl⟩ := exists_turn enough
      obtain ⟨rfl, next, here, behind⟩ := chain
      have rest := ih behind (Nat.lt_of_succ_lt_succ enough)
      by_cases needed : control.needResend node.2 curTime = true
      · simp [putDue, read_node here, Bind.bind, Except.bind, needed, rest, due]
      · simp [putDue, read_node here, Bind.bind, Except.bind, needed, rest, due]

theorem rmAllExhausted_positive {control : MsgDeliveryControl} {nodes : List (NodeRef × ListItem)}
    {link : Option NodeRef} (chain : Chain control.nodes link nodes none)
    (positive : ∀ node ∈ nodes, 0 < node.2.resendCnt) {turns : Nat} (enough : nodes.length < turns) :
    rmAllExhausted turns control link = .ok control := by
  induction nodes generalizing link turns with
  | nil =>
      obtain ⟨turns, rfl⟩ := exists_turn enough
      obtain rfl : link = none := chain
      rfl
  | cons node nodes ih =>
      obtain ⟨turns, rfl⟩ := exists_turn enough
      obtain ⟨rfl, next, here, behind⟩ := chain
      obtain ⟨here_positive, positive⟩ := List.forall_mem_cons.mp positive
      have rest := ih behind positive (Nat.lt_of_succ_lt_succ enough)
      have kept : ¬ node.2.resendCnt ≤ 0 := not_le.mpr here_positive
      simp [rmAllExhausted, read_node here, Bind.bind, Except.bind, kept, rest]

/-- The link of the first exhausted node is read after the node was erased. -/
theorem rmAllExhausted_exhausted {control : MsgDeliveryControl}
    {nodes : List (NodeRef × ListItem)} {link : Option NodeRef}
    (chain : Chain control.nodes link nodes none)
    (exhausted : ∃ node ∈ nodes, node.2.resendCnt ≤ 0) (turns : Nat) (control' : MsgDeliveryControl) :
    rmAllExhausted turns control link ≠ .ok control' := by
  induction nodes generalizing link turns with
  | nil => exact absurd exhausted (by simp)
  | cons node nodes ih =>
      cases turns with
      | zero => exact fun done => nomatch done
      | succ turns =>
          obtain ⟨rfl, next, here, behind⟩ := chain
          by_cases here_exhausted : node.2.resendCnt ≤ 0
          · cases removed : control.removeMsg turns node.1 with
            | error fault =>
                simp [rmAllExhausted, read_node here, Bind.bind, Except.bind, here_exhausted, removed]
            | ok control₁ =>
                have erased := removeMsg_erases removed
                simp [rmAllExhausted, read_node here, Bind.bind, Except.bind, here_exhausted, removed,
                  read_erased erased]
          · have later : ∃ node ∈ nodes, node.2.resendCnt ≤ 0 := by
              obtain ⟨other, member, low⟩ := exhausted
              rcases List.mem_cons.mp member with rfl | member
              · exact absurd low here_exhausted
              · exact ⟨other, member, low⟩
            simpa [rmAllExhausted, read_node here, Bind.bind, Except.bind, here_exhausted] using
              ih behind later turns

/-- `resend` returns, `ret` has been given the messages that are due, and the list has lost
its exhausted items and no other. -/
def ResendExact (control : MsgDeliveryControl) (nodes : List (NodeRef × ListItem)) (curTime : Int)
    (ret : List MsgRef) : Prop :=
  ∃ turns control', control.resend turns curTime ret =
      .ok (ret ++ control.due curTime nodes, control') ∧
    control'.Holds (nodes.filter fun node => 0 < node.2.resendCnt)

theorem resend_positive {control : MsgDeliveryControl} {nodes : List (NodeRef × ListItem)}
    (holds : control.Holds nodes) (positive : ∀ node ∈ nodes, 0 < node.2.resendCnt) (curTime : Int)
    (ret : List MsgRef) : control.resend (nodes.length + 1) curTime ret =
      .ok (ret ++ control.due curTime nodes, control) := by
  have enough := Nat.lt_succ_self nodes.length
  simp [resend, putDue_eq holds.chain curTime enough, Bind.bind, Except.bind,
    rmAllExhausted_positive holds.chain positive enough]

structure Shows (control : MsgDeliveryControl) (nodes : List (NodeRef × ListItem))
    (out : Outgoing) : Prop where
  holds : control.Holds nodes
  items : out.control = nodes.map Prod.snd
  objects : out.objects = control.objects
  resendCnt : out.resendCnt = control.resendCnt
  resendTime : out.resendTime = control.resendTime

theorem resend_refines {control : MsgDeliveryControl} {nodes : List (NodeRef × ListItem)}
    {out : Outgoing} (shows_ : control.Shows nodes out)
    (positive : ∀ node ∈ nodes, 0 < node.2.resendCnt) (curTime : Int) :
    control.resend (nodes.length + 1) curTime out.toSendMsg =
        .ok ((out.resend curTime).toSendMsg, control) ∧
      control.Shows nodes (out.resend curTime) := by
  obtain ⟨holds, items, objects, resendCnt, resendTime⟩ := shows_
  have spared {out : Outgoing} (chain : List ListItem)
      (positive : ∀ item ∈ chain, 0 < item.resendCnt) : out.rmAllExhausted chain = out := by
    induction chain with
    | nil => rfl
    | cons item chain ih =>
        obtain ⟨here, positive⟩ := List.forall_mem_cons.mp positive
        rw [Outgoing.rmAllExhausted, if_neg (not_le.mpr here), ih positive]
  have kept : out.resend curTime = { out with
      toSendMsg := out.toSendMsg ++ control.due curTime nodes } := by
    have same (item : ListItem) : out.needResend item curTime = control.needResend item curTime := by
      simp [Outgoing.needResend, needResend, resendTime]
    rw [Outgoing.resend, spared, items, List.filter_map, List.map_map]
    · simp only [Function.comp_def, same]
      rfl
    · rw [items]
      exact List.forall_mem_map.mpr positive
  rw [kept]
  exact ⟨resend_positive holds positive curTime _, holds, items, objects, resendCnt, resendTime⟩

theorem find_refines {control : MsgDeliveryControl} {nodes : List (NodeRef × ListItem)}
    {link : Option NodeRef} (chain : Chain control.nodes link nodes none) {out : Outgoing}
    (objects : out.objects = control.objects) {id : Int64} {found : Option ListItem} {turns : Nat}
    (enough : nodes.length < turns) (done : out.find id (nodes.map Prod.snd) = .ok found) :
    (found = none ∧ control.find id turns link = .ok none) ∨
      ∃ before addr item after, found = some item ∧ nodes = before ++ (addr, item) :: after ∧
        control.find id turns link = .ok (some addr) := by
  -- The walk over the links and the walk over the list, node by node.
  induction nodes generalizing link turns with
  | nil =>
      obtain ⟨turns, rfl⟩ := exists_turn enough
      obtain rfl : link = none := chain
      exact .inl ⟨(Except.ok.inj done).symm, rfl⟩
  | cons node nodes ih =>
      obtain ⟨turns, rfl⟩ := exists_turn enough
      obtain ⟨rfl, next, here, behind⟩ := chain
      have reads := read_node here
      simp only [List.map_cons, Outgoing.find, objects] at done
      cases alive : control.objects node.2.msg with
      | none => simp [alive] at done
      | some msg =>
          simp only [alive] at done
          by_cases same : msg.id = id
          · rw [if_pos same] at done
            refine .inr ⟨[], node.1, node.2, nodes, (Except.ok.inj done).symm, rfl, ?_⟩
            simp [find, reads, alive, same, Bind.bind, Except.bind]
          · rw [if_neg same] at done
            have step : control.find id (turns + 1) (some node.1) = control.find id turns next := by
              simp [find, reads, alive, same, Bind.bind, Except.bind]
            rw [step]
            rcases ih behind (Nat.lt_of_succ_lt_succ enough) done with
              ⟨none_, nothing⟩ | ⟨before, addr, item, after, some_, split, there⟩
            · exact .inl ⟨none_, nothing⟩
            · exact .inr ⟨node :: before, addr, item, after, some_, by rw [split]; rfl, there⟩

/-- A receipt removes from the nodes what it removes from the list. -/
theorem processCheck_refines {control : MsgDeliveryControl} {nodes : List (NodeRef × ListItem)}
    {out out' : Outgoing} (shows_ : control.Shows nodes out)
    (apart : (out.control.map ListItem.msg).Nodup) {id : Int64}
    (done : out.processCheck id = .ok out') :
    ∃ found control' nodes', control.processCheck (nodes.length + 1) id = .ok (found, control') ∧
      control'.Shows nodes' out' := by
  obtain ⟨holds, items, objects, resendCnt, resendTime⟩ := shows_
  obtain ⟨found, first, rest⟩ := bind_ok done
  have enough := Nat.lt_succ_self nodes.length
  rcases find_refines holds.chain objects enough (items ▸ first) with
    ⟨rfl, nothing⟩ | ⟨before, addr, item, after, rfl, rfl, there⟩
  · obtain rfl := Except.ok.inj rest
    refine ⟨false, control, nodes, ?_, ⟨holds, items, objects, resendCnt, resendTime⟩⟩
    simp [processCheck, nothing, Bind.bind, Except.bind]
  · obtain rfl := Except.ok.inj rest
    obtain ⟨control', removed, did⟩ := @removeMsg_removed control before after addr item holds
      (before ++ (addr, item) :: after).length.succ (by simp)
    refine ⟨true, control', before ++ after, ?_, did.holds, ?_, ?_, ?_, ?_⟩
    · unfold processCheck
      rw [there]
      simp only [Bind.bind, Except.bind, removed]
    · -- no other item holds the message
      rw [items] at apart
      simp only [List.map_append, List.map_cons, List.map_map, List.nodup_append, List.nodup_cons,
        List.mem_cons, List.mem_map, Function.comp_apply] at apart
      obtain ⟨_, ⟨behind, _⟩, disjoint⟩ := apart
      have others : ∀ node ∈ before ++ after, node.2.msg ≠ item.msg := by
        intro node member same
        rcases List.mem_append.mp member with member | member
        · exact disjoint _ ⟨node, member, rfl⟩ _ (.inl rfl) same
        · exact behind ⟨node, member, same⟩
      have kept : (before ++ after).filter (fun node => node.2.msg ≠ item.msg) = before ++ after :=
        List.filter_eq_self.mpr fun node member => decide_eq_true (others node member)
      show out.control.filter (fun other => other.msg ≠ item.msg) = _
      rw [items, List.filter_map, List.filter_append, List.filter_cons_of_neg (by simp),
        ← List.filter_append]
      exact congrArg _ kept
    · rw [did.objects, ← objects]
      rfl
    · exact resendCnt.trans did.resendCnt.symm
    · exact resendTime.trans did.resendTime.symm

end MsgDeliveryControl

/-- Exactly when a resend pass is what it should be: no counter has run out. -/
theorem resend_exact_iff {control : MsgDeliveryControl} {nodes : List (NodeRef × ListItem)}
    (holds : control.Holds nodes) (curTime : Int) (ret : List MsgRef) :
    control.ResendExact nodes curTime ret ↔ ∀ node ∈ nodes, 0 < node.2.resendCnt := by
  constructor
  · rintro ⟨turns, control', done, _⟩
    -- an exhausted item makes the second loop fail
    by_contra low
    push Not at low
    obtain ⟨_, _, done⟩ := bind_ok done
    obtain ⟨_, removed, _⟩ := bind_ok done
    exact MsgDeliveryControl.rmAllExhausted_exhausted holds.chain low turns _ removed
  · intro positive
    refine ⟨_, control, MsgDeliveryControl.resend_positive holds positive curTime ret, ?_⟩
    have whole : nodes.filter (fun node => 0 < node.2.resendCnt) = nodes := by
      rw [List.filter_eq_self]
      exact fun node member => decide_eq_true (positive node member)
    rwa [whole]

/-- Two items in a list, one of them due. -/
def twoItems (resendCnt : Int) : MsgDeliveryControl where
  last := some 5
  size := 2
  resendCnt := 3
  resendTime := 10
  nodes := fun ref =>
    if ref = 5 then some ⟨⟨0, 100, 3⟩, some 8⟩
    else if ref = 8 then some ⟨⟨1, 80, resendCnt⟩, none⟩ else none
  objects := fun _ => none

theorem twoItems_holds (resendCnt : Int) :
    (twoItems resendCnt).Holds [(5, ⟨0, 100, 3⟩), (8, ⟨1, 80, resendCnt⟩)] :=
  ⟨⟨rfl, _, rfl, rfl, _, rfl, rfl⟩, rfl⟩

theorem resend_exact_iff_twoItems :
    (twoItems 2).ResendExact [(5, ⟨0, 100, 3⟩), (8, ⟨1, 80, 2⟩)] 105 [7] :=
  (resend_exact_iff (twoItems_holds 2) 105 [7]).mpr (by decide)

/-- The last item has no attempt left: it is deleted and then asked for the next one. -/
theorem exhausted_link_followed :
    ¬ (twoItems 0).ResendExact [(5, ⟨0, 100, 3⟩), (8, ⟨1, 80, 0⟩)] 105 [] ∧
      (twoItems 0).resend 3 105 [] = .error .erasedNode := by
  refine ⟨?_, rfl⟩
  rintro ⟨turns, control', done, _⟩
  obtain ⟨_, _, done⟩ := bind_ok done
  obtain ⟨_, removed, _⟩ := bind_ok done
  exact MsgDeliveryControl.rmAllExhausted_exhausted (twoItems_holds 0).chain
    ⟨_, List.mem_cons_of_mem _ List.mem_cons_self, le_rfl⟩ turns _ removed

end Battleship
