/-! The two dialects of query text. -/
namespace EntityQuery

inductive Dialect where
  | jpql
  | hql
deriving Repr, DecidableEq

namespace Dialect

def name : Dialect → String
  | jpql => "jpql"
  | hql => "hql"

/-- Names are read without regard to the case of ASCII letters. -/
def ofName? (s : String) : Except String Dialect :=
  let lowered := s.map Char.toLower
  if lowered = "jpql" then .ok jpql
  else if lowered = "hql" then .ok hql
  else .error ("unknown dialect: " ++ lowered)

/-- Both dialects write a quote inside a string twice. -/
def quote (_ : Dialect) (s : String) : String :=
  let inside := s.toList.flatMap fun c => if c = '\'' then ['\'', '\''] else [c]
  String.ofList ('\'' :: inside ++ ['\''])

def boolText : Dialect → Bool → String
  | jpql, true => "TRUE"
  | jpql, false => "FALSE"
  | hql, true => "true"
  | hql, false => "false"

def parameterText (_ : Dialect) (name : String) : String := ":" ++ name

def concatText (_ : Dialect) : String := "||"

/-- Without the operator a function of two arguments concatenates. -/
def hasConcatOperator : Dialect → Bool
  | jpql => false
  | hql => true

end Dialect
end EntityQuery
