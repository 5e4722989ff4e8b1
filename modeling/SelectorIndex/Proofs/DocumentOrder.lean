import SelectorIndex.Document

/-!
# Document order

A document is the preorder of its tree. `StandsAt part whole number` says that a
list stands in another one from a place on: the subtree of a node stands in the
preorder of the tree, and its entries stand in the document, both from the number
of the node on (`Places`). The children, the parent and the walk over the elements
below a node are read off that, for a node and for a row of siblings at a time,
and all of it together is `ofNode_inOrder`.

The numbers of siblings are computed from the sizes of their trees. They are the
numbers that come about when elements are appended one by one and each child is
entered with its parent once its subtree is there (`entries_ofNode`).
-/

namespace SelectorIndex

/-! ## Parts of a list -/

/-- The part stands in the whole from this place on. -/
def StandsAt {α : Type} (part whole : List α) (number : Nat) : Prop :=
  ∀ i, i < part.length → whole[number + i]? = part[i]?

namespace StandsAt

variable {α : Type} {part rest whole : List α} {a : α} {number : Nat}

theorem refl (whole : List α) : StandsAt whole whole 0 := fun i _ => by rw [Nat.zero_add]

theorem of_append (h : StandsAt (part ++ rest) whole number) :
    StandsAt part whole number ∧ StandsAt rest whole (number + part.length) := by
  constructor
  · intro i hi
    rw [h i (by rw [List.length_append]; omega), List.getElem?_append_left hi]
  · intro i hi
    rw [Nat.add_assoc, h (part.length + i) (by rw [List.length_append]; omega),
      List.getElem?_append_right (by omega), Nat.add_sub_cancel_left]

theorem head (h : StandsAt (a :: part) whole number) : whole[number]? = some a := by
  simpa using h 0 (by simp)

theorem tail (h : StandsAt (a :: part) whole number) : StandsAt part whole (number + 1) :=
  of_append (show StandsAt ([a] ++ part) whole number from h) |>.2

theorem length_lt (h : StandsAt (a :: part) whole number) :
    number + part.length < whole.length := by
  have hmem : part.length < (a :: part).length := Nat.lt_succ_self _
  have hlast := h part.length hmem
  rw [List.getElem?_eq_getElem hmem] at hlast
  exact (List.getElem?_eq_some_iff.1 hlast).1

end StandsAt

/-! ## Trees -/

namespace Node

mutual

/-- What holds of a node if it holds of its children as a list, and of a list of nodes if it holds
of each of them, holds of all nodes. -/
theorem induction {P : Node → Prop} {Q : List Node → Prop}
    (hnode : ∀ node, Q node.children → P node) (hnil : Q [])
    (hcons : ∀ node rest, P node → Q rest → Q (node :: rest)) : ∀ node, P node
  | ⟨tag, id?, class?, attrs, children⟩ =>
    hnode ⟨tag, id?, class?, attrs, children⟩ (induction_list hnode hnil hcons children)

theorem induction_list {P : Node → Prop} {Q : List Node → Prop}
    (hnode : ∀ node, Q node.children → P node) (hnil : Q [])
    (hcons : ∀ node rest, P node → Q rest → Q (node :: rest)) : ∀ nodes, Q nodes
  | [] => hnil
  | node :: rest =>
    hcons node rest (induction hnode hnil hcons node) (induction_list hnode hnil hcons rest)

end

theorem size_eq (node : Node) : node.size = sizes node.children + 1 := by
  cases node
  rw [size]

@[simp] theorem sizes_nil : sizes [] = 0 := by rw [sizes]

@[simp] theorem sizes_cons (node : Node) (rest : List Node) :
    sizes (node :: rest) = node.size + sizes rest := by rw [sizes]

theorem preorder_eq (node : Node) : node.preorder = node :: preorders node.children := by
  cases node
  rw [preorder]

@[simp] theorem preorders_nil : preorders [] = [] := by rw [preorders]

@[simp] theorem preorders_cons (node : Node) (rest : List Node) :
    preorders (node :: rest) = node.preorder ++ preorders rest := by rw [preorders]

theorem length_preorder : ∀ node : Node, node.preorder.length = node.size := by
  refine induction (Q := fun nodes => (preorders nodes).length = sizes nodes) ?_ ?_ ?_
  · intro node ih
    rw [preorder_eq, size_eq, List.length_cons, ih]
  · simp
  · intro node rest hnode hrest
    simp [hnode, hrest]

end Node

namespace Document

open Node (preorders sizes)

theorem entriesAt_eq (parent? : Option Nat) (number : Nat) (node : Node) :
    entriesAt parent? number node =
      ⟨node.tag, node.allAttrs, parent?, numbers (number + 1) node.children⟩ ::
        siblingsAt number (number + 1) node.children := by
  cases node
  rw [entriesAt]
  rfl

@[simp] theorem siblingsAt_nil (parent number : Nat) : siblingsAt parent number [] = [] := by
  rw [siblingsAt]

@[simp] theorem siblingsAt_cons (parent number : Nat) (node : Node) (rest : List Node) :
    siblingsAt parent number (node :: rest) =
      entriesAt (some parent) number node ++ siblingsAt parent (number + node.size) rest := by
  rw [siblingsAt]

theorem length_siblingsAt : ∀ (nodes : List Node) (parent number : Nat),
    (siblingsAt parent number nodes).length = sizes nodes := by
  refine Node.induction_list
    (P := fun node => ∀ parent? number, (entriesAt parent? number node).length = node.size)
    ?_ ?_ ?_
  · intro node ih parent? number
    rw [entriesAt_eq, List.length_cons, ih, Node.size_eq]
  · simp
  · intro node rest hnode hrest parent number
    simp [hnode, hrest]

theorem length_entriesAt (parent? : Option Nat) (number : Nat) (node : Node) :
    (entriesAt parent? number node).length = node.size := by
  rw [entriesAt_eq, List.length_cons, length_siblingsAt, Node.size_eq]

/-! ## Numbers of siblings -/

theorem bounds_of_mem_numbers {number j : Nat} {nodes : List Node} (h : j ∈ numbers number nodes) :
    number ≤ j ∧ j < number + sizes nodes := by
  induction nodes generalizing number with
  | nil => cases h
  | cons node rest ih =>
    have hsize := node.size_eq
    rw [Node.sizes_cons]
    rcases List.mem_cons.1 h with rfl | h
    · omega
    · have := ih h
      omega

theorem pairwise_numbers (number : Nat) (nodes : List Node) :
    (numbers number nodes).Pairwise (· < ·) := by
  induction nodes generalizing number with
  | nil => exact .nil
  | cons node rest ih =>
    refine .cons (fun j hj => ?_) (ih _)
    have hsize := node.size_eq
    have := bounds_of_mem_numbers hj
    omega

/-! ## Places of nodes -/

/-- The subtree of a node stands in the order of the tree, and its entries stand in the document,
from the number of the node on. -/
structure Places (doc : Document) (order : List Node) (parent? : Option Nat) (number : Nat)
    (node : Node) : Prop where
  order : StandsAt node.preorder order number
  entries : StandsAt (entriesAt parent? number node) doc.entries.toList number

/-- The same for a row of siblings. -/
structure PlacesRow (doc : Document) (order : List Node) (parent number : Nat)
    (nodes : List Node) : Prop where
  order : StandsAt (preorders nodes) order number
  entries : StandsAt (siblingsAt parent number nodes) doc.entries.toList number

variable {doc : Document} {order : List Node} {parent? : Option Nat} {parent number : Nat}
  {node : Node} {nodes : List Node}

theorem Places.entry_eq (h : doc.Places order parent? number node) :
    doc.entries[number]? =
      some ⟨node.tag, node.allAttrs, parent?, numbers (number + 1) node.children⟩ := by
  have hentries := h.entries
  rw [entriesAt_eq] at hentries
  simpa using hentries.head

theorem Places.parent?_eq (h : doc.Places order parent? number node) :
    doc.parent? number = parent? := by
  rw [Document.parent?, entry, h.entry_eq]
  rfl

theorem Places.children_eq (h : doc.Places order parent? number node) :
    doc.children number = numbers (number + 1) node.children := by
  rw [children, entry, h.entry_eq]
  rfl

theorem Places.row (h : doc.Places order parent? number node) :
    doc.PlacesRow order number (number + 1) node.children := by
  obtain ⟨horder, hentries⟩ := h
  rw [Node.preorder_eq] at horder
  rw [entriesAt_eq] at hentries
  exact ⟨horder.tail, hentries.tail⟩

theorem PlacesRow.head (h : doc.PlacesRow order parent number (node :: nodes)) :
    doc.Places order (some parent) number node := by
  obtain ⟨horder, hentries⟩ := h
  rw [Node.preorders_cons] at horder
  rw [siblingsAt_cons] at hentries
  exact ⟨horder.of_append.1, hentries.of_append.1⟩

theorem PlacesRow.tail (h : doc.PlacesRow order parent number (node :: nodes)) :
    doc.PlacesRow order parent (number + node.size) nodes := by
  obtain ⟨horder, hentries⟩ := h
  rw [Node.preorders_cons] at horder
  rw [siblingsAt_cons] at hentries
  have horder := horder.of_append.2
  have hentries := hentries.of_append.2
  rw [Node.length_preorder] at horder
  rw [length_entriesAt] at hentries
  exact ⟨horder, hentries⟩

theorem places_ofNode (root : Node) : (ofNode root).Places root.preorder none 0 root :=
  ⟨.refl _, .refl _⟩

/-- Siblings have their parent, and are the nodes of the row one by one. -/
theorem PlacesRow.parent?_of_mem (h : doc.PlacesRow order parent number nodes) {j : Nat}
    (hj : j ∈ numbers number nodes) : doc.parent? j = some parent := by
  induction nodes generalizing number with
  | nil => cases hj
  | cons node rest ih =>
    rcases List.mem_cons.1 hj with rfl | hj
    · exact h.head.parent?_eq
    · exact ih h.tail hj

theorem PlacesRow.map_numbers (h : doc.PlacesRow order parent number nodes) :
    (numbers number nodes).map (order[·]?) = nodes.map some := by
  induction nodes generalizing number with
  | nil => rfl
  | cons node rest ih =>
    have hhead := h.head.order
    rw [Node.preorder_eq] at hhead
    rw [numbers, List.map_cons, List.map_cons, hhead.head, ih h.tail]

/-- Each node of a subtree has its place, below the node itself as a child of its parent. -/
theorem Places.sub : ∀ (node : Node) (parent? : Option Nat) (number : Nat),
    doc.Places order parent? number node → ∀ i sub, node.preorder[i]? = some sub →
      ∃ q?, doc.Places order q? (number + i) sub ∧
        (i = 0 ∧ q? = parent? ∨
          ∃ q, q? = some q ∧ q < number + i ∧ number + i ∈ doc.children q) := by
  refine Node.induction
    (Q := fun nodes => ∀ parent number, doc.PlacesRow order parent number nodes →
      parent < number → (∀ j ∈ numbers number nodes, j ∈ doc.children parent) →
      ∀ i sub, (preorders nodes)[i]? = some sub →
        ∃ q, doc.Places order (some q) (number + i) sub ∧ q < number + i ∧
          number + i ∈ doc.children q) ?_ ?_ ?_
  · intro node ih parent? number h i sub hsub
    rw [Node.preorder_eq] at hsub
    cases i with
    | zero =>
      cases hsub
      exact ⟨parent?, h, .inl ⟨rfl, rfl⟩⟩
    | succ i =>
      have hmem : ∀ j ∈ numbers (number + 1) node.children, j ∈ doc.children number := by
        intro j hj
        rwa [h.children_eq]
      obtain ⟨q, hq, hlt, hchild⟩ := ih number (number + 1) h.row (by omega) hmem i sub hsub
      rw [Nat.add_right_comm, Nat.add_assoc] at hq hlt hchild
      exact ⟨some q, hq, .inr ⟨q, rfl, hlt, hchild⟩⟩
  · intro parent number _ _ _ i sub hsub
    cases hsub
  · intro node rest hnode hrest parent number h hlt hmem i sub hsub
    obtain ⟨hfirst, hmem⟩ := List.forall_mem_cons.1 hmem
    rw [Node.preorders_cons] at hsub
    by_cases hi : i < node.preorder.length
    · rw [List.getElem?_append_left hi] at hsub
      obtain ⟨q?, hq, ⟨rfl, rfl⟩ | ⟨q, rfl, hle, hchild⟩⟩ := hnode _ _ h.head i sub hsub
      · exact ⟨parent, hq, by omega, hfirst⟩
      · exact ⟨q, hq, hle, hchild⟩
    · rw [List.getElem?_append_right (by omega)] at hsub
      rw [Node.length_preorder] at hi hsub
      obtain ⟨q, hq, hle, hchild⟩ :=
        hrest parent (number + node.size) h.tail (by omega) hmem (i - node.size) sub hsub
      have hnumber : number + node.size + (i - node.size) = number + i := by omega
      rw [hnumber] at hq hle hchild
      exact ⟨q, hq, hle, hchild⟩

/-! ## The walk -/

/-- A walk that meets siblings goes through their subtrees in order before it goes on. -/
theorem PlacesRow.walk_eq : ∀ (nodes : List Node) (parent number : Nat),
    doc.PlacesRow order parent number nodes → ∀ bound stack,
      doc.walk (sizes nodes + bound) (numbers number nodes ++ stack) =
        List.range' number (sizes nodes) ++ doc.walk bound stack := by
  refine Node.induction_list
    (P := fun node => ∀ parent? number, doc.Places order parent? number node → ∀ bound stack,
      doc.walk (node.size + bound) (number :: stack) =
        List.range' number node.size ++ doc.walk bound stack) ?_ ?_ ?_
  · intro node ih parent? number h bound stack
    rw [Node.size_eq, Nat.add_right_comm, walk, h.children_eq, ih _ _ h.row, List.range'_succ,
      List.cons_append]
  · intro parent number _ bound stack
    simp [numbers]
  · intro node rest hnode hrest parent number h bound stack
    rw [Node.sizes_cons, numbers, List.cons_append, Nat.add_assoc, hnode _ _ h.head,
      hrest _ _ h.tail, ← List.append_assoc, List.range'_append_1]

/-! ## Documents of trees -/

theorem takeWhile_ne_eq_filter {js : List Nat} {e : Nat} (h : js.Pairwise (· < ·)) (he : e ∈ js) :
    js.takeWhile (· != e) = js.filter (· < e) := by
  induction js with
  | nil => cases he
  | cons j rest ih =>
    obtain ⟨hj, hrest⟩ := List.pairwise_cons.1 h
    by_cases hje : j = e
    · subst hje
      have hnone : rest.filter (· < j) = [] := by
        rw [List.filter_eq_nil_iff]
        intro k hk
        have := hj k hk
        simp only [decide_eq_true_eq]
        omega
      simp [hnone]
    · have he : e ∈ rest := (List.mem_cons.1 he).resolve_left (Ne.symm hje)
      have hlt : j < e := hj e he
      simp [hje, hlt, ih hrest he]

/-- The document lists the nodes of the tree in preorder, each with its neighbours. -/
structure InOrder (doc : Document) (root : Node) : Prop where
  /-- One element for each node. -/
  size_eq : doc.size = root.preorder.length
  element_eq : ∀ i node, root.preorder[i]? = some node →
    doc.tag i = node.tag ∧ (doc.entry i).attrs = node.allAttrs
  /-- The children are those of the node, in their order. -/
  children_map : ∀ i node, root.preorder[i]? = some node →
    (doc.children i).map (root.preorder[·]?) = node.children.map some
  children_ascending : ∀ i, (doc.children i).Pairwise (· < ·)
  parent_of_child : ∀ i j, j ∈ doc.children i → doc.parent? j = some i ∧ i < j ∧ j < doc.size
  parent?_zero : doc.parent? 0 = none
  child_once : ∀ j, 0 < j → j < doc.size →
    ∃ i, doc.parent? j = some i ∧ (doc.children i).count j = 1
  /-- The walk goes through the rest of the subtree without a gap, and ends there however long it
  may go on. -/
  walk_eq : ∀ i node bound, root.preorder[i]? = some node → node.preorder.length ≤ bound + 1 →
    doc.walk bound (doc.children i) = List.range' (i + 1) (node.preorder.length - 1)
  descendants_eq : ∀ i node, root.preorder[i]? = some node →
    doc.descendants i = List.range' (i + 1) (node.preorder.length - 1)
  preceding_eq : ∀ i p, doc.parent? i = some p →
    doc.preceding i = ((doc.children p).filter (· < i)).reverse
  preceding_eq_nil : ∀ i, doc.parent? i = none → doc.preceding i = []

section

variable {root : Node} {i : Nat}

theorem size_ofNode (root : Node) : (ofNode root).size = root.preorder.length := by
  rw [size, ofNode, List.size_toArray, length_entriesAt, Node.length_preorder]

theorem exists_places (h : root.preorder[i]? = some node) : ∃ parent?,
    (ofNode root).Places root.preorder parent? i node ∧
      (i = 0 ∧ parent? = none ∨
        ∃ q, parent? = some q ∧ q < i ∧ i ∈ (ofNode root).children q) := by
  have := Places.sub root none 0 (places_ofNode root) i node h
  rwa [Nat.zero_add] at this

/-- An element with neighbours is a node of the tree. -/
theorem exists_places_of_lt (h : i < (ofNode root).size) : ∃ node parent?,
    root.preorder[i]? = some node ∧ (ofNode root).Places root.preorder parent? i node ∧
      (i = 0 ∧ parent? = none ∨
        ∃ q, parent? = some q ∧ q < i ∧ i ∈ (ofNode root).children q) := by
  rw [size_ofNode] at h
  have hnode := List.getElem?_eq_getElem h
  obtain ⟨parent?, hplaces⟩ := exists_places hnode
  exact ⟨_, parent?, hnode, hplaces⟩

theorem entry_of_size_le {doc : Document} (h : doc.size ≤ i) :
    doc.entry i = ⟨"", [], none, []⟩ := by
  rw [entry, Array.getElem?_eq_none h]
  rfl

theorem lt_size_of_mem_children {doc : Document} {j : Nat} (h : j ∈ doc.children i) :
    i < doc.size := by
  refine Nat.lt_of_not_le fun hle => ?_
  rw [children, entry_of_size_le hle] at h
  cases h

theorem children_ascending (root : Node) (i : Nat) :
    ((ofNode root).children i).Pairwise (· < ·) := by
  by_cases hlt : i < (ofNode root).size
  · obtain ⟨node, parent?, -, hplaces, -⟩ := exists_places_of_lt hlt
    rw [hplaces.children_eq]
    exact pairwise_numbers _ _
  · rw [children, entry_of_size_le (Nat.le_of_not_lt hlt)]
    exact .nil

theorem mem_children_iff {j : Nat} :
    j ∈ (ofNode root).children i ↔ (ofNode root).parent? j = some i := by
  constructor
  · intro h
    obtain ⟨node, parent?, -, hplaces, -⟩ := exists_places_of_lt (lt_size_of_mem_children h)
    rw [hplaces.children_eq] at h
    exact hplaces.row.parent?_of_mem h
  · intro h
    have hlt : j < (ofNode root).size := by
      refine Nat.lt_of_not_le fun hle => ?_
      rw [parent?, entry_of_size_le hle] at h
      cases h
    obtain ⟨node, parent?, -, hplaces, ⟨-, rfl⟩ | ⟨q, rfl, -, hchild⟩⟩ := exists_places_of_lt hlt
    · rw [hplaces.parent?_eq] at h
      cases h
    · rw [hplaces.parent?_eq] at h
      cases h
      exact hchild

theorem lt_of_mem_children {j : Nat} (h : j ∈ (ofNode root).children i) :
    i < j ∧ j < (ofNode root).size := by
  obtain ⟨node, parent?, -, hplaces, -⟩ := exists_places_of_lt (lt_size_of_mem_children h)
  have hparent := mem_children_iff.1 h
  constructor
  · rw [hplaces.children_eq] at h
    exact (bounds_of_mem_numbers h).1
  · refine Nat.lt_of_not_le fun hle => ?_
    rw [Document.parent?, entry_of_size_le hle] at hparent
    cases hparent

theorem parent?_zero (root : Node) : (ofNode root).parent? 0 = none :=
  (places_ofNode root).parent?_eq

theorem exists_parent {j : Nat} (hpos : 0 < j) (hlt : j < (ofNode root).size) :
    ∃ i, j ∈ (ofNode root).children i := by
  obtain ⟨-, -, -, -, ⟨rfl, -⟩ | ⟨q, -, -, hchild⟩⟩ := exists_places_of_lt hlt
  · omega
  · exact ⟨q, hchild⟩

/-- With room for the rest of the subtree the walk meets just that, and leaves nothing. -/
theorem walk_children_eq (h : root.preorder[i]? = some node) {bound : Nat}
    (hbound : node.preorder.length ≤ bound + 1) :
    (ofNode root).walk bound ((ofNode root).children i) =
      List.range' (i + 1) (node.preorder.length - 1) := by
  obtain ⟨parent?, hplaces, -⟩ := exists_places h
  rw [Node.length_preorder, Node.size_eq] at hbound ⊢
  obtain ⟨room, rfl⟩ := Nat.exists_eq_add_of_le (Nat.le_of_succ_le_succ hbound)
  have hwalk := PlacesRow.walk_eq node.children i (i + 1) hplaces.row room []
  rw [List.append_nil] at hwalk
  rw [hplaces.children_eq, hwalk, Nat.add_sub_cancel]
  cases room <;> rw [walk, List.append_nil]

theorem descendants_eq (h : root.preorder[i]? = some node) :
    (ofNode root).descendants i = List.range' (i + 1) (node.preorder.length - 1) := by
  obtain ⟨parent?, hplaces, -⟩ := exists_places h
  have horder := hplaces.order
  rw [Node.preorder_eq] at horder
  have hlt := horder.length_lt
  apply walk_children_eq h
  rw [Node.preorder_eq, List.length_cons, size_ofNode]
  omega

theorem preceding_eq {p : Nat} (h : (ofNode root).parent? i = some p) :
    (ofNode root).preceding i = (((ofNode root).children p).filter (· < i)).reverse := by
  rw [preceding, h]
  exact congrArg List.reverse
    (takeWhile_ne_eq_filter (children_ascending root p) (mem_children_iff.2 h))

end

/-! ## Elements appended one by one -/

def Entry.addChild (child : Nat) (e : Entry) : Entry := { e with children := e.children ++ [child] }

mutual

/-- A node without children is appended, then each of its children with the subtree of that, and
the number of the child is entered with the node. -/
def addTree (parent? : Option Nat) : Node → Array Entry → Array Entry
  | ⟨tag, id?, class?, attrs, children⟩, entries =>
    addTrees entries.size children
      (entries.push ⟨tag, Node.allAttrs ⟨tag, id?, class?, attrs, []⟩, parent?, []⟩)

def addTrees (parent : Nat) : List Node → Array Entry → Array Entry
  | [], entries => entries
  | node :: rest, entries =>
    addTrees parent rest
      ((addTree (some parent) node entries).modify parent (Entry.addChild entries.size))

end

theorem addTree_eq (parent? : Option Nat) (node : Node) (entries : Array Entry) :
    addTree parent? node entries =
      addTrees entries.size node.children
        (entries.push ⟨node.tag, node.allAttrs, parent?, []⟩) := by
  cases node
  rw [addTree]
  rfl

theorem modify_append {α : Type} (f : α → α) (front : List α) (a : α) (back : List α) :
    (front ++ a :: back).modify front.length f = front ++ f a :: back :=
  List.modifyTailIdx_add (List.modifyHead f) 0 front (a :: back)

/-- Siblings are appended after what is there, and their numbers are entered with the parent. -/
theorem toList_addTrees : ∀ (nodes : List Node) (front : List Entry) (e : Entry)
    (back : List Entry) (entries : Array Entry), entries.toList = front ++ e :: back →
      (addTrees front.length nodes entries).toList =
        front ++ { e with children := e.children ++ numbers entries.size nodes } ::
          (back ++ siblingsAt front.length entries.size nodes) := by
  refine Node.induction_list
    (P := fun node => ∀ parent? entries, (addTree parent? node entries).toList =
      entries.toList ++ entriesAt parent? entries.size node) ?_ ?_ ?_
  · intro node ih parent? entries
    have := ih entries.toList ⟨node.tag, node.allAttrs, parent?, []⟩ []
      (entries.push ⟨node.tag, node.allAttrs, parent?, []⟩) (by simp)
    rw [Array.length_toList, Array.size_push] at this
    rw [addTree_eq, this, entriesAt_eq]
    rfl
  · intro front e back entries h
    rw [addTrees, numbers, siblingsAt_nil, List.append_nil, List.append_nil, h]
  · intro node rest hnode hrest front e back entries h
    have hsize : entries.size = (front ++ e :: back).length := by rw [← h, Array.length_toList]
    have hlist : ((addTree (some front.length) node entries).modify front.length
        (Entry.addChild entries.size)).toList =
        front ++ e.addChild entries.size ::
          (back ++ entriesAt (some front.length) entries.size node) := by
      rw [Array.toList_modify, hnode, h, List.append_assoc, List.cons_append, modify_append]
    have hlength : ((addTree (some front.length) node entries).modify front.length
        (Entry.addChild entries.size)).size = entries.size + node.size := by
      rw [← Array.length_toList, hlist, hsize]
      simp [length_entriesAt]
      omega
    rw [addTrees, hrest _ _ _ _ hlist, hlength, numbers, siblingsAt_cons, Entry.addChild]
    simp

theorem entries_ofNode (root : Node) : (ofNode root).entries = addTree none root #[] := by
  have := toList_addTrees root.children [] ⟨root.tag, root.allAttrs, none, []⟩ []
    #[⟨root.tag, root.allAttrs, none, []⟩] rfl
  apply Array.ext'
  rw [addTree_eq, ofNode, entriesAt_eq]
  exact this.symm

/-! ## Main result -/

/-- A document has one element for each node of its tree, numbered in preorder. The children of an
element are those of its node in their order, each of them once and with the element as parent;
the walk from an element meets exactly the rest of its subtree, which has the numbers that follow;
and the siblings before an element are the smaller children of its parent. The entries are those
that appending the nodes one by one gives. -/
theorem ofNode_inOrder (root : Node) :
    (ofNode root).InOrder root ∧ (ofNode root).entries = addTree none root #[] := by
  refine ⟨?_, entries_ofNode root⟩
  exact {
    size_eq := size_ofNode root
    element_eq := fun i node h => by
      obtain ⟨parent?, hplaces, -⟩ := exists_places h
      rw [tag, entry, hplaces.entry_eq]
      exact ⟨rfl, rfl⟩
    children_map := fun i node h => by
      obtain ⟨parent?, hplaces, -⟩ := exists_places h
      rw [hplaces.children_eq]
      exact hplaces.row.map_numbers
    children_ascending := children_ascending root
    parent_of_child := fun i j h => ⟨mem_children_iff.1 h, lt_of_mem_children h⟩
    parent?_zero := parent?_zero root
    child_once := fun j hpos hlt => by
      obtain ⟨i, hchild⟩ := exists_parent hpos hlt
      have hnodup : ((ofNode root).children i).Nodup :=
        (children_ascending root i).imp fun h => Nat.ne_of_lt h
      exact ⟨i, mem_children_iff.1 hchild, by rw [hnodup.count, if_pos hchild]⟩
    walk_eq := fun i node bound h hbound => walk_children_eq h hbound
    descendants_eq := fun i node h => descendants_eq h
    preceding_eq := fun i p h => preceding_eq h
    preceding_eq_nil := fun i h => by rw [preceding, h] }

/-- A root with a child that has a child, and a second child. -/
example : (ofNode { children := [{ children := [{}] }, {}] }).descendants 0 = [1, 2, 3] ∧
    (ofNode { children := [{ children := [{}] }, {}] }).preceding 3 = [1] := by decide

end Document

end SelectorIndex
