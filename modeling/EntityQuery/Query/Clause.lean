import EntityQuery.Expr.Type

/-! The clauses of a query pipeline, and why one cannot be merged into a single flat query. -/
namespace EntityQuery

inductive Clause where
  | select
  | filter
  | join
  | sort
  | distinct
  | window
  | aggregate
deriving Repr, DecidableEq

def Clause.name : Clause → String
  | select => "select"
  | filter => "where"
  | join => "join"
  | sort => "sorted_by"
  | distinct => "distinct"
  | window => "skip/limit"
  | aggregate => "aggregate"

/-- What a clause needs its expression to be. -/
inductive Requirement where
  | singleValued
  | boolean
  | scalar
  | numeric
deriving Repr, DecidableEq

def Requirement.name : Requirement → String
  | singleValued => "single-valued"
  | boolean => "boolean"
  | scalar => "scalar"
  | numeric => "numeric"

inductive MergeError where
  | afterWindow (clause : Clause)
  | afterDistinct (clause : Clause)
  | type (clause : Clause) (expected : Requirement) (found : ExprType)
  | danglingSource (id : Nat)
  | unsupported (reason : String)
deriving Repr, DecidableEq

def MergeError.message : MergeError → String
  | afterWindow clause => clause.name ++ " after skip/limit cannot be expressed in one query"
  | afterDistinct clause => clause.name ++ " after distinct cannot be expressed in one query"
  | type clause expected found =>
    clause.name ++ " needs a " ++ expected.name ++ " expression, found " ++ found.toText
  | danglingSource id =>
    "expression refers to source SourceId(" ++ toString id ++ ") which is not in the query"
  | unsupported reason => reason

end EntityQuery
