import EntityQuery.Libraries.Basic
import EntityQuery.Proofs.Number.Numeral

/-! What is relied on where libraries write floats. A finite one is a numeral behind its sign. In
JSON it is told from whole numbers and from all other floats. -/
namespace EntityQuery.Libraries

class QueryNumerals [Libraries] : Prop where
  signed : Number.WritesSigned queryNumber

class JsonNumerals [Libraries] : Prop where
  signed : Number.WritesSigned jsonNumber
  /-- A float shows a point or an exponent. -/
  marked {x : Float} (finite : Number.isFinite x) : '.' ∈ jsonNumber x ∨ 'e' ∈ jsonNumber x
  injective {x y : Float} (finite : Number.isFinite x) (finite' : Number.isFinite y)
    (same : jsonNumber x = jsonNumber y) : x = y

end EntityQuery.Libraries
