import Mathlib.Tactic

/-! Singly linked lists in a store of nodes. A chain leads from a link through the nodes
of a list to the link where it ends; the nodes of a chain that ends in a null link are all
different, so one can be unlinked and erased without harm to the others. -/
namespace NodeChain

variable {Addr Item : Type}

structure Node (Addr Item : Type) where
  item : Item
  next : Option Addr

/-- The links lead from `first` through the nodes with these items to `stop`. -/
def Chain (store : Addr → Option (Node Addr Item)) :
    Option Addr → List (Addr × Item) → Option Addr → Prop
  | first, [], stop => first = stop
  | first, (addr, item) :: rest, stop =>
      first = some addr ∧ ∃ next, store addr = some ⟨item, next⟩ ∧ Chain store next rest stop

variable {store : Addr → Option (Node Addr Item)} {first stop : Option Addr}

theorem Chain.cons {addr : Addr} {item : Item} {next : Option Addr} {rest : List (Addr × Item)}
    (here : store addr = some ⟨item, next⟩) (chain : Chain store next rest stop) :
    Chain store (some addr) ((addr, item) :: rest) stop :=
  ⟨rfl, next, here, chain⟩

theorem chain_append {before after : List (Addr × Item)} :
    Chain store first (before ++ after) stop ↔
      ∃ middle, Chain store first before middle ∧ Chain store middle after stop := by
  induction before generalizing first with
  | nil => simp [Chain]
  | cons node before ih =>
      simp only [List.cons_append, Chain, ih]
      constructor
      · rintro ⟨link, next, here, middle, chain, rest⟩
        exact ⟨middle, ⟨link, next, here, chain⟩, rest⟩
      · rintro ⟨middle, ⟨link, next, here, chain⟩, rest⟩
        exact ⟨link, next, here, middle, chain, rest⟩

theorem Chain.unique {nodes nodes' : List (Addr × Item)} (chain : Chain store first nodes none)
    (chain' : Chain store first nodes' none) : nodes = nodes' := by
  induction nodes generalizing first nodes' with
  | nil =>
      cases nodes' with
      | nil => rfl
      | cons node' rest' => cases chain.symm.trans chain'.1
  | cons node rest ih =>
      obtain ⟨link, next, here, chain⟩ := chain
      cases nodes' with
      | nil => cases link.symm.trans chain'
      | cons node' rest' =>
          obtain ⟨link', next', here', chain'⟩ := chain'
          obtain same := Option.some.inj (link.symm.trans link')
          rw [same, here'] at here
          obtain ⟨items, rfl⟩ := Node.mk.inj (Option.some.inj here.symm)
          rw [ih chain chain', Prod.ext same items]

theorem Chain.nodup {nodes : List (Addr × Item)} (chain : Chain store first nodes none) :
    (nodes.map Prod.fst).Nodup := by
  induction nodes generalizing first with
  | nil => exact List.nodup_nil
  | cons node rest ih =>
      obtain ⟨_, next, here, behind⟩ := chain
      refine List.nodup_cons.mpr ⟨fun again => ?_, ih behind⟩
      -- the chain would come back to the node and go on forever
      obtain ⟨node', member, same⟩ := List.mem_map.mp again
      obtain ⟨before, after, split⟩ := List.append_of_mem member
      rw [split] at behind
      obtain ⟨middle, _, link, rest'⟩ := chain_append.mp behind
      have again : Chain store (some node.1) (node' :: after) none := ⟨by rw [same], rest'⟩
      have once : Chain store (some node.1) (node :: rest) none :=
        ⟨rfl, next, here, split ▸ behind⟩
      have lengths := congrArg List.length (once.unique again)
      rw [split] at lengths
      simp at lengths
      omega

/-- A chain does not begin with a node that has another one before it. -/
theorem Chain.first_ne {before after : List (Addr × Item)} {prev node : Addr × Item}
    (chain : Chain store first (before ++ prev :: node :: after) none) : first ≠ some node.1 := by
  have nodup := chain.nodup
  rintro rfl
  cases before with
  | nil =>
      have same := Option.some.inj chain.1
      simp [same] at nodup
  | cons other before =>
      have same := Option.some.inj chain.1
      simp [same] at nodup

theorem Chain.first_eq {nodes : List (Addr × Item)} (chain : Chain store first nodes none) :
    first = nodes.head?.map Prod.fst := by
  cases nodes with
  | nil => exact chain
  | cons node rest => exact chain.1

theorem Chain.mem_store {nodes : List (Addr × Item)} (chain : Chain store first nodes stop)
    {node : Addr × Item} (member : node ∈ nodes) :
    ∃ next, store node.1 = some ⟨node.2, next⟩ := by
  induction nodes generalizing first with
  | nil => exact absurd member List.not_mem_nil
  | cons other rest ih =>
      obtain ⟨_, next, here, behind⟩ := chain
      cases member with
      | head => exact ⟨next, here⟩
      | tail _ member => exact ih behind member

theorem Chain.congr {store' : Addr → Option (Node Addr Item)} {nodes : List (Addr × Item)}
    (chain : Chain store first nodes stop)
    (same : ∀ node ∈ nodes, store' node.1 = store node.1) : Chain store' first nodes stop := by
  induction nodes generalizing first with
  | nil => exact chain
  | cons node rest ih =>
      obtain ⟨link, next, here, behind⟩ := chain
      refine ⟨link, next, ?_, ih behind fun other member =>
        same other (List.mem_cons_of_mem _ member)⟩
      rw [same node List.mem_cons_self, here]

variable [DecidableEq Addr]

theorem Chain.frame {nodes : List (Addr × Item)} (chain : Chain store first nodes stop)
    {addr : Addr} (outside : addr ∉ nodes.map Prod.fst) (node : Option (Node Addr Item)) :
    Chain (Function.update store addr node) first nodes stop := by
  induction nodes generalizing first with
  | nil => exact chain
  | cons other rest ih =>
      obtain ⟨link, next, here, behind⟩ := chain
      obtain ⟨apart, outside⟩ := not_or.mp fun among => outside (List.mem_cons.mpr among)
      refine ⟨link, next, ?_, ih behind outside⟩
      rw [Function.update_of_ne (Ne.symm apart), here]

theorem Chain.erase_first {addr : Addr} {item : Item} {rest : List (Addr × Item)}
    {next : Option Addr} (chain : Chain store first ((addr, item) :: rest) none)
    (here : store addr = some ⟨item, next⟩) :
    Chain (Function.update store addr none) next rest none := by
  have outside := (List.nodup_cons.mp chain.nodup).1
  obtain ⟨_, next', here', behind⟩ := chain
  obtain ⟨-, rfl⟩ := Node.mk.inj (Option.some.inj (here.symm.trans here'))
  exact behind.frame outside none

theorem Chain.erase_behind {before after : List (Addr × Item)} {prev addr : Addr}
    {item item' : Item} {next : Option Addr}
    (chain : Chain store first (before ++ (prev, item) :: (addr, item') :: after) none)
    (here : store addr = some ⟨item', next⟩) :
    Chain (Function.update (Function.update store prev (some ⟨item, next⟩)) addr none) first
      (before ++ (prev, item) :: after) none := by
  have nodup := chain.nodup
  simp only [List.map_append, List.map_cons, List.nodup_append, List.nodup_cons,
    List.mem_cons, not_or] at nodup
  obtain ⟨_, ⟨⟨apart, prev_after⟩, addr_after, _⟩, disjoint⟩ := nodup
  obtain ⟨middle, chain, link, next₁, _, _, next₂, here', behind⟩ := chain_append.mp chain
  obtain ⟨-, rfl⟩ := Node.mk.inj (Option.some.inj (here.symm.trans here'))
  subst link
  have later := (behind.frame prev_after (some ⟨item, next⟩)).frame addr_after none
  refine chain_append.mpr ⟨some prev, ?_, Chain.cons ?_ later⟩
  · refine (chain.frame ?_ _).frame ?_ none
    · exact fun member => disjoint prev member prev (.inl rfl) rfl
    · exact fun member => disjoint addr member addr (.inr (.inl rfl)) rfl
  · rw [Function.update_of_ne apart, Function.update_self]

theorem Chain.snoc {before : List (Addr × Item)} {prev addr : Addr} {item new : Item}
    (chain : Chain store first (before ++ [(prev, item)]) none)
    (outside : addr ∉ (before ++ [(prev, item)]).map Prod.fst) :
    Chain (Function.update (Function.update store addr (some ⟨new, none⟩)) prev
      (some ⟨item, some addr⟩)) first (before ++ [(prev, item)] ++ [(addr, new)]) none := by
  have nodup := chain.nodup
  rw [List.map_append, List.map_singleton, List.nodup_append] at nodup
  rw [List.map_append, List.map_singleton, List.mem_append, List.mem_singleton, not_or] at outside
  have apart : prev ∉ before.map Prod.fst := fun member =>
    nodup.2.2 prev member prev List.mem_cons_self rfl
  obtain ⟨middle, chain, rfl, next, _, rfl⟩ := chain_append.mp chain
  rw [List.append_assoc]
  refine chain_append.mpr ⟨some prev, (chain.frame outside.1 _).frame apart _, ?_⟩
  have last : Function.update (Function.update store addr (some ⟨new, none⟩)) prev
      (some ⟨item, some addr⟩) addr = some ⟨new, none⟩ := by
    rw [Function.update_of_ne outside.2, Function.update_self]
  exact Chain.cons (Function.update_self ..) ⟨rfl, none, last, rfl⟩

end NodeChain
