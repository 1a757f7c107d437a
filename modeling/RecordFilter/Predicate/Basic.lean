import RecordFilter.Json.Writer
import RecordFilter.Operator
import RecordFilter.Token.Basic

/-!
# Predicates

A predicate is the tree of a filter expression: leaves are fields, variables and
constants, inner nodes are comparisons, list membership, negation, connectives
and spatial tests.

    p.height = (p.operands.map height).max + 1
    p.fieldNames rises strictly and holds the names of the fields in p
-/

namespace RecordFilter

/-- A filter expression as a tree. -/
inductive Predicate
  | field (name : String)
  | var (raw : String)
  | string (s : String)
  | integer (n : Int64)
  | float (x : Binary64)
  | boolean (b : Bool)
  | null
  | geometry (payload : Json)
  | list (items : List Predicate)
  | compare (op : CompareOp) (left right : Predicate)
  | isIn (left candidates : Predicate)
  | not (inner : Predicate)
  | join (op : JoinOp) (left right : Predicate)
  | spatial (op : SpatialOp) (left right : Predicate)

/-- Classes of nodes. -/
inductive PredicateKind
  | field
  | var
  | stringConstant
  | numberConstant
  | booleanConstant
  | namedConstant
  | geometry
  | operandList
  | comparison
  | function
  | unary
  | join
  | spatial
  deriving DecidableEq

/-- The name of a class in messages and outlines. -/
def PredicateKind.name : PredicateKind → String
  | field => "field"
  | var => "variable"
  | stringConstant => "str_const"
  | numberConstant => "num_const"
  | booleanConstant => "bool_const"
  | namedConstant => "named_const"
  | geometry => "geometry"
  | operandList => "operand_list"
  | comparison => "comp_op"
  | function => "func_op"
  | unary => "unary_op"
  | join => "join_op"
  | spatial => "geom_op"

namespace Predicate

instance : Inhabited Predicate := ⟨null⟩

/-! ## One node -/

def kind : Predicate → PredicateKind
  | field _ => .field
  | var _ => .var
  | string _ => .stringConstant
  | integer _ => .numberConstant
  | float _ => .numberConstant
  | boolean _ => .booleanConstant
  | null => .namedConstant
  | geometry _ => .geometry
  | list _ => .operandList
  | compare _ _ _ => .comparison
  | isIn _ _ => .function
  | not _ => .unary
  | join _ _ _ => .join
  | spatial _ _ _ => .spatial

/-- The name or literal of a leaf, the symbol of an operator. -/
def value : Predicate → String
  | field name => name
  | var raw => raw
  | string s => s
  | integer n => int64Text n
  | float x => x.plain
  | boolean b => if b then "true" else "false"
  | null => "null"
  | geometry payload => payload.compact
  | list _ => ""
  | compare op _ _ => op.symbol
  | isIn _ _ => "in"
  | not _ => "not"
  | join op _ _ => op.symbol
  | spatial op _ _ => op.name

/-- The operands of a node, in order. -/
def operands : Predicate → List Predicate
  | list items => items
  | compare _ left right => [left, right]
  | isIn left candidates => [left, candidates]
  | not inner => [inner]
  | join _ left right => [left, right]
  | spatial _ left right => [left, right]
  | _ => []

/-- Membership in a list; a right side that is not a list becomes a list of itself. -/
def membership (left : Predicate) : Predicate → Predicate
  | list items => isIn left (list items)
  | single => isIn left (list [single])

/-! ## Size and height -/

mutual

/-- How many nodes a tree has. -/
def size : Predicate → Nat
  | list items => sizeAll items + 1
  | compare _ left right => left.size + right.size + 1
  | isIn left candidates => left.size + candidates.size + 1
  | not inner => inner.size + 1
  | join _ left right => left.size + right.size + 1
  | spatial _ left right => left.size + right.size + 1
  | _ => 1

def sizeAll : List Predicate → Nat
  | [] => 0
  | p :: ps => p.size + sizeAll ps

end

theorem sizeAll_append (ps qs : List Predicate) : sizeAll (ps ++ qs) = sizeAll ps + sizeAll qs := by
  induction ps with
  | nil => simp [sizeAll]
  | cons p ps ih => simp [sizeAll, ih, Nat.add_assoc]

theorem size_eq (p : Predicate) : p.size = sizeAll p.operands + 1 := by
  cases p <;> simp [size, sizeAll, operands]

theorem sizeAll_reverse (ps : List Predicate) : sizeAll ps.reverse = sizeAll ps := by
  induction ps with
  | nil => rfl
  | cons p ps ih =>
    rw [List.reverse_cons, sizeAll_append, ih]
    simp only [sizeAll, Nat.add_zero]
    exact Nat.add_comm ..

/-- Takes nodes off a stack, each with its level, and puts their operands on it; the one put on last
is the next to come off.  The first argument is the greatest level seen so far.  Trees can be far
higher than wide, so no call waits for another. -/
def heightFrom (deepest : Nat) (stack : List (Predicate × Nat)) : Nat :=
  match stack with
  | [] => deepest
  | (p, level) :: stack =>
    heightFrom (max deepest level) ((p.operands.map fun q => (q, level + 1)).reverse ++ stack)
termination_by sizeAll (stack.map Prod.fst)
decreasing_by
  -- the operands of a node have one node less than the node itself
  have h : (p.operands.map fun q => (q, level + 1)).map Prod.fst = p.operands := by
    rw [List.map_map]
    exact List.map_id p.operands
  rw [List.map_append, List.map_reverse, h, sizeAll_append, sizeAll_reverse, List.map_cons, sizeAll,
    size_eq p]
  omega

/-- The height of a tree: the number of its levels, one for a leaf. -/
def height (p : Predicate) : Nat := heightFrom 0 [(p, 1)]

/-! ## Fields -/

/-- Puts a name in its place among rising names. -/
def insertName (name : String) : List String → List String
  | [] => [name]
  | n :: ns =>
    if name < n then name :: n :: ns else if name = n then n :: ns else n :: insertName name ns

mutual

/-- The names of the fields of a tree, put in their places among names already found. -/
def collectFields (found : List String) : Predicate → List String
  | field name => insertName name found
  | list items => collectAll found items
  | compare _ left right => collectFields (collectFields found left) right
  | isIn left candidates => collectFields (collectFields found left) candidates
  | not inner => collectFields found inner
  | join _ left right => collectFields (collectFields found left) right
  | spatial _ left right => collectFields (collectFields found left) right
  | _ => found

def collectAll (found : List String) : List Predicate → List String
  | [] => found
  | p :: ps => collectAll (collectFields found p) ps

end

/-- The names of the fields that a tree reads, sorted, each once. -/
def fieldNames (p : Predicate) : List String := collectFields [] p

/-! ## Equality -/

mutual

/-- Equality of trees; constants of numbers are compared as numbers. -/
def same : Predicate → Predicate → Bool
  | field a, field b => a == b
  | var a, var b => a == b
  | string a, string b => a == b
  | integer a, integer b => a == b
  | float x, float y => x.equal y
  | boolean a, boolean b => a == b
  | null, null => true
  | geometry a, geometry b => a.equal b
  | list as, list bs => sameAll as bs
  | compare o a b, compare p c d => o == p && same a c && same b d
  | isIn a b, isIn c d => same a c && same b d
  | not a, not b => same a b
  | join o a b, join p c d => o == p && same a c && same b d
  | spatial o a b, spatial p c d => o == p && same a c && same b d
  | _, _ => false

def sameAll : List Predicate → List Predicate → Bool
  | [], [] => true
  | a :: as, b :: bs => same a b && sameAll as bs
  | _, _ => false

end

end Predicate

end RecordFilter
