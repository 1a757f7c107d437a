import RecordFilter.Predicate.Basic

/-!
# Outlines

The outline of a tree has a line for every node, parents before their operands:
the class and the value of the node, indented by two blanks a level.
-/

namespace RecordFilter

namespace Predicate

mutual

/-- The nodes of a tree with their levels, parents before their operands. -/
def nodes (level : Nat) (p : Predicate) : List (Nat × Predicate) :=
  (level, p) :: match p with
    | list items => nodesAll (level + 1) items
    | compare _ left right => left.nodes (level + 1) ++ right.nodes (level + 1)
    | isIn left candidates => left.nodes (level + 1) ++ candidates.nodes (level + 1)
    | not inner => inner.nodes (level + 1)
    | join _ left right => left.nodes (level + 1) ++ right.nodes (level + 1)
    | spatial _ left right => left.nodes (level + 1) ++ right.nodes (level + 1)
    | _ => []

def nodesAll (level : Nat) : List Predicate → List (Nat × Predicate)
  | [] => []
  | p :: ps => p.nodes level ++ nodesAll level ps

end

/-- The line of a node; a list of operands has no value of its own. -/
def outlineLine (level : Nat) (p : Predicate) : String :=
  String.ofList (List.replicate (2 * level) ' ') ++ p.kind.name
    ++ (if p.kind = .operandList then "" else ": " ++ p.value) ++ "\n"

/-- The outline of a tree that starts at a level. -/
def outline (p : Predicate) (level : Nat) : String :=
  String.join ((p.nodes level).map fun (l, q) => outlineLine l q)

end Predicate

end RecordFilter
