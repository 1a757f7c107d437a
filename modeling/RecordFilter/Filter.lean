import RecordFilter.Evaluation
import RecordFilter.Predicate.Outline
import RecordFilter.Predicate.Parser
import RecordFilter.Sql.Generate

/-!
# Filters

A filter is a predicate with bind parameters, which travel with every fragment
that is made of it.
-/

namespace RecordFilter

/-- A predicate with bind parameters. -/
structure Filter where
  root : Predicate
  params : BindParams

namespace Filter

def ofPredicate (root : Predicate) : Filter := ⟨root, .empty⟩

def parse (expression : String) : Except ParseError Filter :=
  (Predicate.parse expression).map ofPredicate

/-- The condition of a filter, with its parameters and those of its spatial tests. -/
def fragment (f : Filter) (g : Generator) : Except SqlError Fragment := do
  let made ← g.fragment f.root
  made.mergeParams f.params

/-- Whether a record passes a filter. -/
def evaluate (f : Filter) (session : Variables) (record : Record) : Except EvalError Bool :=
  f.root.evaluate session record

end Filter

end RecordFilter
