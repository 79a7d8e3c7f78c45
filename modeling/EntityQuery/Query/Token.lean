import EntityQuery.Dialect
import EntityQuery.Libraries.Basic
import EntityQuery.Text.Case
import EntityQuery.Value.Text

/-! The tokens of query text, and their spelling in each dialect. -/
namespace EntityQuery

inductive Word where
  | SELECT
  | DISTINCT
  | FROM
  | WHERE
  | AND
  | OR
  | NOT
  | ORDER_BY
  | ASC
  | DESC
  | CASE
  | WHEN
  | THEN
  | ELSE
  | END
  | IS_NULL
  | IS_NOT_NULL
deriving Repr, DecidableEq

def Word.text : Word → String
  | SELECT => "SELECT"
  | DISTINCT => "DISTINCT"
  | FROM => "FROM"
  | WHERE => "WHERE"
  | AND => "AND"
  | OR => "OR"
  | NOT => "NOT"
  | ORDER_BY => "ORDER BY"
  | ASC => "ASC"
  | DESC => "DESC"
  | CASE => "CASE"
  | WHEN => "WHEN"
  | THEN => "THEN"
  | ELSE => "ELSE"
  | END => "END"
  | IS_NULL => "IS NULL"
  | IS_NOT_NULL => "IS NOT NULL"

inductive Symbol where
  | eq
  | ne
  | lt
  | gt
  | le
  | ge
  | plus
  | minus
  | times
  | divide
  | concat
deriving Repr, DecidableEq

def Symbol.text (d : Dialect) : Symbol → String
  | eq => "="
  | ne => "<>"
  | lt => "<"
  | gt => ">"
  | le => "<="
  | ge => ">="
  | plus => "+"
  | minus => "-"
  | times => "*"
  | divide => "/"
  | concat => d.concatText

inductive Token where
  | word (w : Word)
  | symbol (s : Symbol)
  | comma
  | dot
  | leftParen
  | rightParen
  | space
  | sourceName (name : String)
  | entity (name : String)
  | attributeName (name : String)
  | parameter (name : String)
  | int (n : Int64)
  | float (x : Float)
  | string (s : String)
  | bool (b : Bool)
  | null
  | function (name : String)

namespace Token

def text [Libraries] (d : Dialect) : Token → String
  | word w => w.text
  | symbol s => s.text d
  | comma => ","
  | dot => "."
  | leftParen => "("
  | rightParen => ")"
  | space => " "
  | sourceName name => name
  | entity name => name
  | attributeName name => name
  | parameter name => d.parameterText name
  | int n => Value.showInt n
  | float x => String.ofList (Libraries.queryNumber x)
  | string s => d.quote s
  | bool b => d.boolText b
  | null => "NULL"
  | function name => String.ofList (Text.upper name.toList)

end Token

/-- The text of a sequence of tokens, which has blanks only where a token is one. -/
def tokensText [Libraries] (d : Dialect) (tokens : List Token) : String :=
  String.ofList (tokens.flatMap fun t => (t.text d).toList)

end EntityQuery
