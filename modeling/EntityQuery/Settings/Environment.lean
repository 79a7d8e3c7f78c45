/-! References to variables in a text. A dollar sign refers to the name in the braces after it, or
to the longest name that follows it; any other dollar sign stands for itself. -/
namespace EntityQuery

/-- What a process finds under the name of a variable. A value may be bytes that are no text. -/
inductive Variable where
  | unset
  | notUnicode
  | text (value : String)
deriving Repr, DecidableEq

abbrev Environment := String → Variable

namespace Environment

/-- A part of a text. -/
inductive Piece where
  | plain (c : Char)
  | reference (name : String)
deriving Repr, DecidableEq

def isNameChar (c : Char) : Bool := c.isAlphanum || c == '_'

def isOpeningBrace (c : Char) : Bool := c == '\x7b'

def isClosingBrace (c : Char) : Bool := c == '\x7d'

/-- The name in braces and what follows them. It may hold any character but the closing brace. -/
def braced? (cs : List Char) : Option (String × List Char) :=
  match cs.dropWhile fun c => !isClosingBrace c with
  | [] => none
  | _ :: rest => some (String.ofList (cs.takeWhile fun c => !isClosingBrace c), rest)

/-- The name at the head and what follows it. -/
def bare? (cs : List Char) : Option (String × List Char) :=
  match cs.takeWhile isNameChar with
  | [] => none
  | name => some (String.ofList name, cs.dropWhile isNameChar)

/-- The name that a dollar sign before the characters refers to. -/
def reference? : List Char → Option (String × List Char)
  | [] => none
  | c :: cs => if isOpeningBrace c then braced? cs else bare? (c :: cs)

theorem braced?_length {cs rest : List Char} {name : String} (h : braced? cs = some (name, rest)) :
    rest.length ≤ cs.length := by
  have hd := (List.dropWhile_sublist (l := cs) fun c => !isClosingBrace c).length_le
  unfold braced? at h
  split at h
  · cases h
  · rename_i after heq
    simp only [Option.some.injEq, Prod.mk.injEq] at h
    rw [heq, List.length_cons] at hd
    rw [← h.2]
    exact Nat.le_of_succ_le hd

theorem bare?_length {cs rest : List Char} {name : String} (h : bare? cs = some (name, rest)) :
    rest.length ≤ cs.length := by
  have hd := (List.dropWhile_sublist (l := cs) isNameChar).length_le
  unfold bare? at h
  split at h
  · cases h
  · simp only [Option.some.injEq, Prod.mk.injEq] at h
    rw [← h.2]
    exact hd

theorem reference?_length {cs rest : List Char} {name : String}
    (h : reference? cs = some (name, rest)) : rest.length ≤ cs.length := by
  cases cs with
  | nil => cases h
  | cons c cs =>
    simp only [reference?] at h
    split at h
    · exact Nat.le_succ_of_le (braced?_length h)
    · exact bare?_length h

/-- The text taken apart from left to right. -/
def pieces : List Char → List Piece
  | [] => []
  | c :: cs =>
    if c = '$' then
      match h : reference? cs with
      | some (name, rest) =>
        have := reference?_length h
        .reference name :: pieces rest
      | none => .plain c :: pieces cs
    else .plain c :: pieces cs
termination_by cs => cs.length

def Piece.value (env : Environment) : Piece → Except String (List Char)
  | plain c => .ok [c]
  | reference name =>
    match env name with
    | .text value => .ok value.toList
    | _ => .error name

/-- Puts values for references, or names the first variable that has no text. Values are not looked
at again. -/
def expand (env : Environment) (text : String) : Except String String := do
  let parts ← (pieces text.toList).mapM (Piece.value env)
  return String.ofList parts.flatten

end Environment
end EntityQuery
