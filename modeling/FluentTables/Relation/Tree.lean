import FluentTables.Condition
import FluentTables.Text.Lines

/-!
# Trees of relations

Dotted paths with a common beginning share it in the tree, so that its rows are fetched once. The conditions given
with a path belong to its last segment.
-/

namespace FluentTables

/-- A relation to attach, with conditions on its rows and the relations to attach to those. -/
structure RelationNode where
  name : String
  conditions : List Condition := []
  children : List RelationNode := []

/-- What holds of trees whenever it holds of the trees under each of their nodes holds of all trees. -/
@[elab_as_elim]
theorem RelationNode.trees_induction {motive : List RelationNode → Prop}
    (step : ∀ nodes, (∀ node ∈ nodes, motive node.children) → motive nodes) (nodes : List RelationNode) :
    motive nodes :=
  step nodes fun node hnode =>
    have : sizeOf node.children < sizeOf nodes := by
      have hlt := List.sizeOf_lt_of_mem hnode
      cases node
      simp at hlt ⊢
      omega
    trees_induction step node.children
termination_by sizeOf nodes

/-- A dotted path of relations and conditions on the rows at its end. -/
structure RelationPath where
  path : String
  conditions : List Condition := []
deriving DecidableEq

/-- The names along a path; empty ones are left out. -/
def pathSegments (path : String) : List String :=
  ((Text.splitOn '.' path.toList).filter fun s => !s.isEmpty).map String.ofList

/-- **The names along a path** are those that are put together with dots, without the empty ones. -/
theorem pathSegments_intercalate {names : List (List Char)} (hne : names ≠ []) (h : ∀ n ∈ names, '.' ∉ n) :
    pathSegments (String.ofList (['.'].intercalate names)) =
      (names.filter fun n => !n.isEmpty).map String.ofList := by
  rw [pathSegments, String.toList_ofList, Text.splitOn_intercalate hne h]

namespace RelationNode

/-- The first node of a name changed, or a new one at the end. -/
def alter (name : String) (f : RelationNode → RelationNode) : List RelationNode → List RelationNode
  | [] => [f { name }]
  | n :: r => if n.name = name then f n :: r else n :: alter name f r

/-- A path added to the trees it begins or joins. -/
def insertPath (conditions : List Condition) : List String → List RelationNode → List RelationNode
  | [], nodes => nodes
  | [s], nodes => alter s (fun n => { n with conditions := n.conditions ++ conditions }) nodes
  | s :: t :: r, nodes =>
    alter s (fun n => { n with children := insertPath conditions (t :: r) n.children }) nodes

/-- The trees of a list of paths. -/
def ofPaths (paths : List RelationPath) : List RelationNode :=
  paths.foldl (fun nodes p => insertPath p.conditions (pathSegments p.path) nodes) []

end RelationNode

end FluentTables
