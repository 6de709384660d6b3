import Mathlib.Data.List.DropRight
import Mathlib.Data.List.Flatten
import Mathlib.Data.List.Infix
import ApiDocs.Tree.Node

/-!
# Comments in front of nodes

A scan over some nodes attaches comments to the nodes that follow them.  Where the scan puts a
comment can be told from the place of the comment alone: a node gets the comments between it and
the last node in front of it that separates.

The nodes to which a comment can be attached stand in one tree, at several levels.  As every
comment of a list of nodes is attached once at most, and in order, the comments and the nodes to
which they are attached can be read off the tree from front to back.
-/

namespace ApiDocs

namespace Node

/-- Whether a node separates the comments in front of it from the nodes behind it. -/
def separates (passes : Node → Bool) (node : Node) : Bool :=
  !node.isComment && !passes node

end Node

/-- The comments at the end of some nodes: those behind the last node that separates. -/
def commentsAtEnd (passes : Node → Bool) (nodes : List Node) : List Node :=
  (nodes.rtakeWhile fun node => !node.separates passes).filter Node.isComment

/-- The comments at the start of some nodes: those in front of the first node that separates. -/
def commentsAtStart (passes : Node → Bool) (nodes : List Node) : List Node :=
  if nodes.any (Node.separates passes) then
    (nodes.takeWhile fun node => !node.separates passes).filter Node.isComment
  else []

/-- The nodes that separate, each with the comments between it and the one before. -/
def documentable (passes : Node → Bool) (nodes : List Node) : List (List Node × Node) :=
  ((nodes.inits.zip nodes).filter fun (_, node) => node.separates passes).map
    fun (before, node) => (commentsAtEnd passes before, node)

section Attach

variable {passes : Node → Bool} {node : Node} {before nodes : List Node}

@[simp]
theorem commentsAtEnd_nil : commentsAtEnd passes [] = [] := rfl

theorem commentsAtEnd_concat_of_separates (separates : node.separates passes = true) :
    commentsAtEnd passes (before ++ [node]) = [] := by
  rw [commentsAtEnd, List.rtakeWhile_concat_neg]
  · rfl
  · simp [separates]

theorem commentsAtEnd_concat_of_not_separates (joins : node.separates passes = false) :
    commentsAtEnd passes (before ++ [node]) =
      commentsAtEnd passes before ++ [node].filter Node.isComment := by
  rw [commentsAtEnd, List.rtakeWhile_concat_pos, List.filter_append]
  · rfl
  · simp [joins]

/-- What the scan does with one node, said of the nodes in front of it. -/
theorem attachComments_commentsAtEnd_cons (before nodes : List Node) (node : Node) :
    attachComments passes (commentsAtEnd passes before) (node :: nodes) =
      ([(before, node)].filter fun (_, node) => node.separates passes).map
          (fun (before, node) => (commentsAtEnd passes before, node)) ++
        attachComments passes (commentsAtEnd passes (before ++ [node])) nodes := by
  rw [attachComments]
  by_cases comment : node.isComment = true
  · have joins : node.separates passes = false := by simp [Node.separates, comment]
    simp [comment, joins, commentsAtEnd_concat_of_not_separates]
  · by_cases passed : passes node = true
    · have joins : node.separates passes = false := by simp [Node.separates, passed]
      simp [comment, passed, joins, commentsAtEnd_concat_of_not_separates]
    · have separates : node.separates passes = true := by simp [Node.separates, comment, passed]
      simp [comment, passed, separates, commentsAtEnd_concat_of_separates]

/-- The scan in the midst of its nodes: the waiting comments are those at the end of the others. -/
theorem attachComments_behind (before nodes : List Node) :
    attachComments passes (commentsAtEnd passes before) nodes =
      (((nodes.inits.map (before ++ ·)).zip nodes).filter
          fun (_, node) => node.separates passes).map
        fun (before, node) => (commentsAtEnd passes before, node) := by
  induction nodes generalizing before with
  | nil => rfl
  | cons node rest ih =>
      rw [attachComments_commentsAtEnd_cons, ih, ← List.map_append, ← List.filter_append,
        List.singleton_append]
      simp [Function.comp_def]

/-- The scan finds the nodes that separate, each with the comments in front of it. -/
theorem attachComments_eq_documentable (passes : Node → Bool) (nodes : List Node) :
    attachComments passes [] nodes = documentable passes nodes := by
  rw [← commentsAtEnd_nil, attachComments_behind]
  simp [documentable]

/-- The first node that separates has the waiting comments and those in front of it. -/
theorem map_fst_head?_attachComments (pending nodes : List Node) :
    (attachComments passes pending nodes).head?.map Prod.fst =
      if nodes.any (Node.separates passes) then
        some (pending ++ (nodes.takeWhile fun node => !node.separates passes).filter Node.isComment)
      else none := by
  induction nodes generalizing pending with
  | nil => rfl
  | cons node rest ih =>
      rw [attachComments]
      by_cases comment : node.isComment = true
      · have joins : node.separates passes = false := by simp [Node.separates, comment]
        rw [if_pos comment, ih]
        simp [joins, comment]
      · rw [if_neg comment]
        by_cases passed : passes node = true
        · have joins : node.separates passes = false := by simp [Node.separates, passed]
          rw [if_pos passed, ih]
          simp [joins, comment]
        · have separates : node.separates passes = true := by
            simp [Node.separates, comment, passed]
          rw [if_neg passed]
          simp [separates]

theorem getD_head?_documentable (passes : Node → Bool) (nodes : List Node) :
    ((documentable passes nodes).head?.map Prod.fst).getD [] = commentsAtStart passes nodes := by
  rw [← attachComments_eq_documentable, map_fst_head?_attachComments, commentsAtStart]
  split <;> rfl

end Attach

/-! ## From front to back -/

mutual

/-- A node and all nodes below it, from front to back. -/
def Node.subtree : Node → List Node
  | .mk kind named start stop field children =>
    .mk kind named start stop field children :: Node.subtrees children

/-- The subtrees of some nodes, one behind the other. -/
def Node.subtrees : List Node → List Node
  | [] => []
  | node :: rest => node.subtree ++ Node.subtrees rest

end

namespace Node

theorem subtree_eq (node : Node) : node.subtree = node :: subtrees node.children := by
  cases node
  rw [subtree, children]

theorem subtrees_eq_flatMap (nodes : List Node) : subtrees nodes = nodes.flatMap subtree := by
  induction nodes with
  | nil => rfl
  | cons node rest ih => rw [subtrees, ih, List.flatMap_cons]

theorem singleton_sublist_subtree (node : Node) : [node].Sublist node.subtree := by
  rw [subtree_eq]
  exact List.Sublist.cons_cons node (List.nil_sublist _)

theorem subtrees_children_sublist (node : Node) :
    (subtrees node.children).Sublist node.subtree := by
  rw [subtree_eq]
  exact List.sublist_cons_self _ _

theorem subtree_sublist_of_mem {node child : Node} (member : child ∈ node.children) :
    child.subtree.Sublist node.subtree := by
  apply List.Sublist.trans _ node.subtrees_children_sublist
  have own := (List.singleton_sublist.mpr member).flatMap subtree
  rwa [List.flatMap_singleton, ← subtrees_eq_flatMap] at own

theorem subtree_sublist_of_at? {node child : Node} {field : String}
    (found : node.at? field = some child) : child.subtree.Sublist node.subtree :=
  subtree_sublist_of_mem (List.mem_of_find?_eq_some found)

theorem subtree_sublist_of_firstPart? {node child : Node} (found : node.firstPart? = some child) :
    child.subtree.Sublist node.subtree :=
  subtree_sublist_of_mem (List.mem_of_find?_eq_some found)

end Node

/--
The comments that the scan attaches stand in the tree in front of what they are attached to, and
behind everything that comes before: no comment is attached twice.
-/
theorem flatMap_attachComments_sublist {passes : Node → Bool}
    {below : List Node → Node → List Node}
    (inside : ∀ comments node, (below comments node).Sublist node.subtree)
    (pending nodes : List Node) :
    ((attachComments passes pending nodes).flatMap fun (comments, node) =>
      comments ++ below comments node).Sublist (pending ++ Node.subtrees nodes) := by
  induction nodes generalizing pending with
  | nil => exact List.nil_sublist _
  | cons node rest ih =>
      rw [attachComments, Node.subtrees]
      split
      · apply (ih _).trans
        rw [List.append_assoc]
        exact ((node.singleton_sublist_subtree).append (List.Sublist.refl _)).append_left pending
      · split
        · exact (ih pending).trans ((List.sublist_append_right _ _).append_left pending)
        · rw [List.flatMap_cons, List.append_assoc]
          exact ((inside pending node).append (ih [])).append_left pending

theorem flatMap_documentable_sublist (passes : Node → Bool) (below : List Node → Node → List Node)
    (inside : ∀ comments node, (below comments node).Sublist node.subtree) (nodes : List Node) :
    ((documentable passes nodes).flatMap fun (comments, node) =>
      comments ++ below comments node).Sublist (Node.subtrees nodes) := by
  rw [← attachComments_eq_documentable]
  exact flatMap_attachComments_sublist inside [] nodes

end ApiDocs
