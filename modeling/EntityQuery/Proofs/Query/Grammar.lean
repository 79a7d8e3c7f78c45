import EntityQuery.Expr.Operator
import EntityQuery.Query.Token

/-! A grammar of the expressions in query text. `OR` binds loosest, then `AND`, `NOT`, comparisons
and null tests, `+ - ||`, `* /`, the minus sign and points of paths; operators of one strength
group to the left. The grammar is unambiguous: tokens have at most one tree. -/
namespace EntityQuery

/-- What a token is to the grammar: a number has no sign of its own. -/
inductive Mark where
  | token (t : Token)
  | whole (magnitude : Nat)
  | fraction (magnitude : Float)

def Mark.minus : Mark := token (.symbol .minus)

/-- Blanks separate tokens and mean nothing else; a negative number is a sign and a magnitude. -/
def Token.marks : Token → List Mark
  | space => []
  | int n => (if n < 0 then [.minus] else []) ++ [.whole n.toInt.natAbs]
  | float x => (if Number.isNegative x then [.minus] else []) ++ [.fraction x.abs]
  | t => [.token t]

def Token.marksOfAll (ts : List Token) : List Mark := ts.flatMap marks

/-- How query text is grouped. -/
inductive QueryTree where
  | whole (magnitude : Nat)
  | fraction (magnitude : Float)
  | string (s : String)
  | bool (b : Bool)
  | null
  | parameter (name : String)
  | source (name : String)
  | member (base : QueryTree) (name : String)
  | call (function : String) (arguments : List QueryTree)
  | cases (condition whenTrue whenFalse : QueryTree)
  | minus (operand : QueryTree)
  | binary (op : BinaryOp) (left right : QueryTree)
  | isNull (operand : QueryTree)
  | isNotNull (operand : QueryTree)
  | not (operand : QueryTree)

namespace Mark

/-- `MOD` is a function. -/
def operator? : Mark → Option BinaryOp
  | token (.word .OR) => some .or
  | token (.word .AND) => some .and
  | token (.symbol .eq) => some .eq
  | token (.symbol .ne) => some .ne
  | token (.symbol .lt) => some .lt
  | token (.symbol .gt) => some .gt
  | token (.symbol .le) => some .le
  | token (.symbol .ge) => some .ge
  | token (.symbol .plus) => some .add
  | token (.symbol .minus) => some .sub
  | token (.symbol .concat) => some .concat
  | token (.symbol .times) => some .mul
  | token (.symbol .divide) => some .div
  | _ => none

end Mark

namespace QueryTree

open Mark

def notStrength : Nat := 3

def testStrength : Nat := 4

def signStrength : Nat := 7

/-- Of literals, paths, calls, `CASE` and what stands in parentheses. -/
def closedStrength : Nat := 8

/-- The mark of a literal, a parameter or a source. -/
inductive OfMark : Mark → QueryTree → Prop
  | whole (n : Nat) : OfMark (.whole n) (.whole n)
  | fraction (x : Float) : OfMark (.fraction x) (.fraction x)
  | string (s : String) : OfMark (.token (.string s)) (.string s)
  | bool (b : Bool) : OfMark (.token (.bool b)) (.bool b)
  | null : OfMark (.token .null) .null
  | parameter (name : String) : OfMark (.token (.parameter name)) (.parameter name)
  | source (name : String) : OfMark (.token (.sourceName name)) (.source name)

def commaSeparated : List (List Mark) → List Mark
  | [] => []
  | first :: rest => first ++ rest.flatMap fun ts => token .comma :: ts

/-- The trees of a sequence of marks as far as nothing in it binds less tightly than a strength. -/
inductive Derives : Nat → List Mark → QueryTree → Prop
  | closed {x : Mark} {a : QueryTree} (h : OfMark x a) : Derives closedStrength [x] a
  | member {ts : List Mark} {a : QueryTree} (name : String) (base : Derives closedStrength ts a) :
    Derives closedStrength (ts ++ [token .dot, token (.attributeName name)]) (.member a name)
  | call (function : String) {arguments : List (List Mark × QueryTree)}
    (each : ∀ p ∈ arguments, Derives 1 p.1 p.2) :
    Derives closedStrength (token (.function function) :: token .leftParen ::
      commaSeparated (arguments.map Prod.fst) ++ [token .rightParen])
      (.call function (arguments.map Prod.snd))
  | cases {cs ts fs : List Mark} {c a b : QueryTree} (condition : Derives 1 cs c)
    (whenTrue : Derives 1 ts a) (whenFalse : Derives 1 fs b) :
    Derives closedStrength (token (.word .CASE) :: token (.word .WHEN) :: cs
      ++ token (.word .THEN) :: ts ++ token (.word .ELSE) :: fs ++ [token (.word .END)])
      (.cases c a b)
  | group {ts : List Mark} {a : QueryTree} (inner : Derives 1 ts a) :
    Derives closedStrength (token .leftParen :: ts ++ [token .rightParen]) a
  | minus {ts : List Mark} {a : QueryTree} (operand : Derives signStrength ts a) :
    Derives signStrength (.minus :: ts) (.minus a)
  | binary {op : BinaryOp} {ls rs : List Mark} {x : Mark} {a b : QueryTree}
    (sign : x.operator? = some op) (left : Derives op.precedence ls a)
    (right : Derives (op.precedence + 1) rs b) :
    Derives op.precedence (ls ++ x :: rs) (.binary op a b)
  | isNull {ts : List Mark} {a : QueryTree} (operand : Derives testStrength ts a) :
    Derives testStrength (ts ++ [token (.word .IS_NULL)]) (.isNull a)
  | isNotNull {ts : List Mark} {a : QueryTree} (operand : Derives testStrength ts a) :
    Derives testStrength (ts ++ [token (.word .IS_NOT_NULL)]) (.isNotNull a)
  | not {ts : List Mark} {a : QueryTree} (operand : Derives notStrength ts a) :
    Derives notStrength (token (.word .NOT) :: ts) (.not a)
  | looser {k : Nat} {ts : List Mark} {a : QueryTree} (tighter : Derives (k + 1) ts a) :
    Derives k ts a

theorem Derives.mono {j k : Nat} {ts : List Mark} {a : QueryTree} (h : Derives k ts a)
    (le : j ≤ k) : Derives j ts a := by
  induction le with
  | refl => exact h
  | step _ ih => exact ih (.looser h)

/-- The trees of expressions with commas between them. -/
def DerivesAll (ts : List Mark) (as : List QueryTree) : Prop :=
  ∃ parts : List (List Mark × QueryTree), (∀ p ∈ parts, Derives 1 p.1 p.2) ∧
    commaSeparated (parts.map Prod.fst) = ts ∧ parts.map Prod.snd = as

/-! Reading from the left, which finds every tree -/

/-- What follows a closing parenthesis that must come next. -/
def afterParen : List Mark → Option (List Mark)
  | token .rightParen :: rest => some rest
  | _ => none

def afterWord (w : Word) : List Mark → Option (List Mark)
  | token (.word v) :: rest => if v = w then some rest else none
  | _ => none

mutual

/-- A tree at the head of the marks, as far as nothing in it binds less tightly than `k`. -/
def read : Nat → Nat → List Mark → Option (QueryTree × List Mark)
  | 0, _, _ => none
  | fuel + 1, k, ts => (readOperand fuel ts).bind fun (a, rest) => readRest fuel k a rest

/-- What goes on after an operand. -/
def readRest : Nat → Nat → QueryTree → List Mark → Option (QueryTree × List Mark)
  | 0, _, _, _ => none
  | fuel + 1, k, a, ts =>
    match ts with
    | token .dot :: token (.attributeName name) :: rest =>
      if k ≤ closedStrength then readRest fuel k (.member a name) rest else some (a, ts)
    | token (.word .IS_NULL) :: rest =>
      if k ≤ testStrength then readRest fuel k (.isNull a) rest else some (a, ts)
    | token (.word .IS_NOT_NULL) :: rest =>
      if k ≤ testStrength then readRest fuel k (.isNotNull a) rest else some (a, ts)
    | x :: rest =>
      match x.operator? with
      | some op =>
        if k ≤ op.precedence then
          (read fuel (op.precedence + 1) rest).bind fun (b, rest) =>
            readRest fuel k (.binary op a b) rest
        else some (a, ts)
      | none => some (a, ts)
    | [] => some (a, [])

def readOperand : Nat → List Mark → Option (QueryTree × List Mark)
  | 0, _ => none
  | fuel + 1, ts =>
    match ts with
    | token (.word .NOT) :: rest =>
      (read fuel notStrength rest).map fun (a, rest) => (.not a, rest)
    | token (.symbol .minus) :: rest =>
      (read fuel signStrength rest).map fun (a, rest) => (.minus a, rest)
    | token .leftParen :: rest =>
      (read fuel 1 rest).bind fun (a, rest) => (afterParen rest).map (a, ·)
    | token (.function f) :: token .leftParen :: rest =>
      (readAll fuel rest).bind fun (as, rest) => (afterParen rest).map (.call f as, ·)
    | token (.word .CASE) :: token (.word .WHEN) :: rest =>
      (read fuel 1 rest).bind fun (c, rest) => (afterWord .THEN rest).bind fun rest =>
        (read fuel 1 rest).bind fun (a, rest) => (afterWord .ELSE rest).bind fun rest =>
          (read fuel 1 rest).bind fun (b, rest) => (afterWord .END rest).map (.cases c a b, ·)
    | .whole n :: rest => some (.whole n, rest)
    | .fraction x :: rest => some (.fraction x, rest)
    | token (.string s) :: rest => some (.string s, rest)
    | token (.bool b) :: rest => some (.bool b, rest)
    | token .null :: rest => some (.null, rest)
    | token (.parameter name) :: rest => some (.parameter name, rest)
    | token (.sourceName name) :: rest => some (.source name, rest)
    | _ => none

/-- Trees with commas between them, none if a parenthesis closes. -/
def readAll : Nat → List Mark → Option (List QueryTree × List Mark)
  | 0, _ => none
  | fuel + 1, ts =>
    match ts with
    | token .rightParen :: _ => some ([], ts)
    | ts =>
      (read fuel 1 ts).bind fun (a, rest) =>
        match rest with
        | token .comma :: rest =>
          (readAll fuel rest).bind fun (as, rest) => some (a :: as, rest)
        | rest => some ([a], rest)

end

/-- A computation with enough fuel has this result. -/
def Settles {α : Type} (f : Nat → Option α) (r : α) : Prop :=
  ∃ n, ∀ fuel, n ≤ fuel → f fuel = some r

namespace Settles

variable {α β : Type} {f g : Nat → Option α} {r r' : α}

theorem unique (h : Settles f r) (h' : Settles f r') : r = r' := by
  obtain ⟨n, hn⟩ := h
  obtain ⟨n', hn'⟩ := h'
  have := (hn (max n n') (by omega)).symm.trans (hn' (max n n') (by omega))
  exact Option.some.inj this

theorem const : Settles (fun _ => some r) r := ⟨0, fun _ _ => rfl⟩

/-- One unit of fuel more. -/
theorem step (h : Settles g r) (hf : ∀ fuel, f (fuel + 1) = g fuel) : Settles f r := by
  obtain ⟨n, hn⟩ := h
  refine ⟨n + 1, fun fuel hfuel => ?_⟩
  obtain ⟨fuel, rfl⟩ : ∃ m, fuel = m + 1 := ⟨fuel - 1, by omega⟩
  rw [hf, hn fuel (by omega)]

theorem bind {g : Nat → α → Option β} {s : β} (h : Settles f r)
    (hg : Settles (fun fuel => g fuel r) s) : Settles (fun fuel => (f fuel).bind (g fuel)) s := by
  obtain ⟨n, hn⟩ := h
  obtain ⟨n', hn'⟩ := hg
  refine ⟨max n n', fun fuel hfuel => ?_⟩
  exact (congrArg (·.bind (g fuel)) (hn fuel (by omega))).trans (hn' fuel (by omega))

theorem map {g : α → β} (h : Settles f r) : Settles (fun fuel => (f fuel).map g) (g r) := by
  obtain ⟨n, hn⟩ := h
  exact ⟨n, fun fuel hfuel => congrArg (·.map g) (hn fuel hfuel)⟩

end Settles

/-- How tightly a mark binds that goes on after an operand. -/
def strength? : Mark → Option Nat
  | token .dot => some closedStrength
  | token (.word .IS_NULL) | token (.word .IS_NOT_NULL) => some testStrength
  | x => x.operator?.map BinaryOp.precedence

/-- No tree of strength `k` goes on with these marks. -/
def Stops (k : Nat) (ts : List Mark) : Prop := ∀ x ∈ ts.head?, ∀ s ∈ strength? x, s < k

theorem Stops.mono {j k : Nat} {ts : List Mark} (h : Stops j ts) (le : j ≤ k) : Stops k ts :=
  fun x hx s hs => Nat.lt_of_lt_of_le (h x hx s hs) le

theorem stops_cons {k : Nat} {x : Mark} {ts : List Mark} :
    Stops k (x :: ts) ↔ ∀ s ∈ strength? x, s < k := by
  simp [Stops]

theorem strength?_of_operator? {x : Mark} {op : BinaryOp} (h : x.operator? = some op) :
    strength? x = some op.precedence := by
  unfold strength?
  split
  · cases h
  · cases h
  · cases h
  · rw [h]; rfl

variable {k : Nat} {a b : QueryTree} {ts rest : List Mark} {r : QueryTree × List Mark}

theorem readRest_of_stops (h : Stops k ts) : Settles (readRest · k a ts) (a, ts) := by
  refine .step .const fun fuel => ?_
  rw [readRest.eq_def]
  dsimp only
  split
  · have := stops_cons.1 h closedStrength rfl
    rw [if_neg (by omega)]
  · have := stops_cons.1 h testStrength rfl
    rw [if_neg (by omega)]
  · have := stops_cons.1 h testStrength rfl
    rw [if_neg (by omega)]
  · next x rest _ _ _ =>
    split
    · next op hop =>
      have := stops_cons.1 h op.precedence (strength?_of_operator? hop)
      rw [if_neg (by omega)]
    · rfl
  · rfl

/-- An operand, and what goes on after it. -/
theorem read_of_operand {rest : List Mark} (ho : Settles (readOperand · ts) (a, rest))
    (hr : Settles (readRest · k a rest) r) : Settles (read · k ts) r :=
  .step (ho.bind hr) fun _ => rfl

theorem readOperand_closed {x : Mark} (h : OfMark x a) :
    Settles (readOperand · (x :: rest)) (a, rest) := by
  refine .step .const fun _ => ?_
  cases h <;> rfl

theorem readOperand_group (h : Settles (read · 1 ts) (a, token .rightParen :: rest)) :
    Settles (readOperand · (token .leftParen :: ts)) (a, rest) :=
  .step (h.bind .const) fun _ => rfl

theorem readOperand_minus (h : Settles (read · signStrength ts) (a, rest)) :
    Settles (readOperand · (.minus :: ts)) (.minus a, rest) :=
  .step h.map fun _ => rfl

theorem readOperand_not (h : Settles (read · notStrength ts) (a, rest)) :
    Settles (readOperand · (token (.word .NOT) :: ts)) (.not a, rest) :=
  .step h.map fun _ => rfl

theorem readOperand_cases {cs ts fs : List Mark} {c : QueryTree}
    (hc : Settles (read · 1 cs) (c, token (.word .THEN) :: ts))
    (ha : Settles (read · 1 ts) (a, token (.word .ELSE) :: fs))
    (hb : Settles (read · 1 fs) (b, token (.word .END) :: rest)) :
    Settles (readOperand · (token (.word .CASE) :: token (.word .WHEN) :: cs))
      (.cases c a b, rest) := by
  obtain ⟨n, hc⟩ := hc
  obtain ⟨n', ha⟩ := ha
  obtain ⟨n'', hb⟩ := hb
  refine ⟨max n (max n' n'') + 1, fun fuel hfuel => ?_⟩
  obtain ⟨fuel, rfl⟩ : ∃ m, fuel = m + 1 := ⟨fuel - 1, by omega⟩
  simp only [readOperand, hc fuel (by omega), ha fuel (by omega), hb fuel (by omega), afterWord,
    Option.bind_some, if_true, Option.map_some]

theorem readRest_operator {x : Mark} {op : BinaryOp} (sign : x.operator? = some op)
    (le : k ≤ op.precedence) (hb : Settles (read · (op.precedence + 1) ts) (b, rest))
    (hr : Settles (readRest · k (.binary op a b) rest) r) :
    Settles (readRest · k a (x :: ts)) r := by
  refine .step (hb.bind (g := fun fuel p => readRest fuel k (.binary op a p.1) p.2) hr)
    fun fuel => ?_
  rw [readRest.eq_def]
  dsimp only
  split
  · next h => rw [(List.cons.inj h).1] at sign; cases sign
  · next h => rw [(List.cons.inj h).1] at sign; cases sign
  · next h => rw [(List.cons.inj h).1] at sign; cases sign
  · next h =>
    obtain ⟨rfl, rfl⟩ := List.cons.inj h
    rw [sign]
    exact if_pos le
  · next h => cases h

theorem readRest_member {name : String} (le : k ≤ closedStrength)
    (hr : Settles (readRest · k (.member a name) rest) r) :
    Settles (readRest · k a (token .dot :: token (.attributeName name) :: rest)) r :=
  .step hr fun _ => if_pos le

theorem readRest_isNull (le : k ≤ testStrength) (hr : Settles (readRest · k (.isNull a) rest) r) :
    Settles (readRest · k a (token (.word .IS_NULL) :: rest)) r :=
  .step hr fun _ => if_pos le

theorem readRest_isNotNull (le : k ≤ testStrength)
    (hr : Settles (readRest · k (.isNotNull a) rest) r) :
    Settles (readRest · k a (token (.word .IS_NOT_NULL) :: rest)) r :=
  .step hr fun _ => if_pos le

theorem readOperand_call {f : String} {as : List QueryTree}
    (h : Settles (readAll · ts) (as, token .rightParen :: rest)) :
    Settles (readOperand · (token (.function f) :: token .leftParen :: ts)) (.call f as, rest) :=
  .step (h.bind (g := fun _ (as, rest) => (afterParen rest).map (call f as, ·)) .const)
    fun _ => rfl

theorem read_rightParen : ¬ Settles (read · k (token .rightParen :: ts)) r := by
  rintro ⟨n, hn⟩
  have h := hn (n + 2) (by omega)
  cases h

/-- The members of a list that do not close a parenthesis. -/
theorem readAll_eq (h : Settles (read · 1 ts) r) (fuel : Nat) :
    readAll (fuel + 1) ts = (read fuel 1 ts).bind fun (a, rest) =>
        match rest with
        | token .comma :: rest =>
          (readAll fuel rest).bind fun (as, rest) => some (a :: as, rest)
        | rest => some ([a], rest) := by
  rw [readAll.eq_def]
  dsimp only
  split
  · exact absurd h read_rightParen
  · rfl

theorem readAll_cons {as : List QueryTree} (h : Settles (read · 1 ts) (a, token .comma :: rest))
    {more : List Mark} (hs : Settles (readAll · rest) (as, more)) :
    Settles (readAll · ts) (a :: as, more) :=
  .step (h.bind (hs.bind (g := fun _ p => some (a :: p.1, p.2)) .const)) (readAll_eq h)

theorem readAll_last (h : Settles (read · 1 ts) (a, token .rightParen :: rest)) :
    Settles (readAll · ts) ([a], token .rightParen :: rest) :=
  .step (h.bind .const) (readAll_eq h)

theorem readAll_nil :
    Settles (readAll · (token .rightParen :: rest)) ([], token .rightParen :: rest) :=
  .step .const fun _ => rfl

theorem stops_of_none {x : Mark} (h : strength? x = none) : Stops k (x :: ts) :=
  stops_cons.2 (by simp [h])

/-- No mark binds like a sign or a negation, so where these could go on nothing does. -/
theorem Stops.of_prefix {s : Nat} (h : Stops (s + 1) ts)
    (sign : s = notStrength ∨ s = signStrength) :
    Stops s ts := by
  intro x hx t ht
  have ne : t ≠ s := by
    unfold strength? at ht
    split at ht
    · cases ht; rcases sign with rfl | rfl <;> decide
    · cases ht; rcases sign with rfl | rfl <;> decide
    · cases ht; rcases sign with rfl | rfl <;> decide
    · obtain ⟨op, -, rfl⟩ := Option.map_eq_some_iff.1 ht
      rcases sign with rfl | rfl <;> cases op <;> decide
  have := h x hx t ht
  omega

/-- Every tree of `ts` is found whatever comes next that does not bind it, and reading goes on from
there. -/
def Found (k : Nat) (ts : List Mark) (a : QueryTree) : Prop :=
  ∀ j rest r, j ≤ k → Stops (k + 1) rest → Settles (readRest · j a rest) r →
    Settles (read · j (ts ++ rest)) r

/-- A tree that nothing goes on with. -/
theorem Found.alone (h : Found k ts a) {j : Nat} (le : j ≤ k) (stops : Stops j rest) :
    Settles (read · j (ts ++ rest)) (a, rest) :=
  h j rest _ le (stops.mono (by omega)) (readRest_of_stops stops)

theorem readAll_parts {parts : List (List Mark × QueryTree)}
    (each : ∀ p ∈ parts, Found 1 p.1 p.2) :
    Settles (readAll · (commaSeparated (parts.map Prod.fst) ++ token .rightParen :: rest))
      (parts.map Prod.snd, token .rightParen :: rest) := by
  cases parts with
  | nil => exact readAll_nil
  | cons p parts =>
    induction parts generalizing p with
    | nil =>
      simp only [List.map_cons, List.map_nil, commaSeparated, List.flatMap_nil, List.append_nil]
      exact readAll_last ((each p (by simp)).alone Nat.le.refl (stops_of_none rfl))
    | cons q parts ih =>
      have others := ih q fun p hp => each p (List.mem_cons_of_mem _ hp)
      simp only [List.map_cons, commaSeparated, List.flatMap_cons, List.append_assoc,
        List.cons_append] at others ⊢
      exact readAll_cons ((each p (by simp)).alone Nat.le.refl (stops_of_none rfl)) others

/-- Reading finds every tree. -/
theorem Derives.found (h : Derives k ts a) : Found k ts a := by
  induction h with
  | closed h => exact fun j rest r _ _ hr => read_of_operand (readOperand_closed h) hr
  | member name _ ih =>
    intro j rest r le _ hr
    rw [List.append_assoc]
    exact ih j _ r le (stops_cons.2 fun s hs => by cases hs; decide) (readRest_member le hr)
  | call function _ ih =>
    intro j rest r _ _ hr
    simp only [List.cons_append, List.append_assoc, List.nil_append]
    exact read_of_operand (readOperand_call (readAll_parts ih)) hr
  | cases _ _ _ ihc iha ihb =>
    intro j rest r _ _ hr
    simp only [List.cons_append, List.append_assoc, List.nil_append]
    refine read_of_operand (readOperand_cases (ihc.alone Nat.le.refl ?_)
      (iha.alone Nat.le.refl ?_) (ihb.alone Nat.le.refl ?_)) hr
    all_goals exact stops_of_none rfl
  | group _ ih =>
    intro j rest r _ _ hr
    simp only [List.cons_append, List.append_assoc, List.nil_append]
    exact read_of_operand (readOperand_group (ih.alone Nat.le.refl (stops_of_none rfl))) hr
  | minus _ ih =>
    intro j rest r _ stops hr
    have operand := ih.alone Nat.le.refl (stops.of_prefix (.inr rfl))
    exact read_of_operand (readOperand_minus operand) hr
  | @binary op ls rs x a b sign _ _ ihl ihr =>
    intro j rest r le stops hr
    have right := ihr.alone Nat.le.refl stops
    rw [List.append_assoc]
    refine ihl j _ r le (stops_cons.2 fun s hs => ?_) (readRest_operator sign le right hr)
    rw [strength?_of_operator? sign] at hs
    cases hs
    omega
  | isNull _ ih =>
    intro j rest r le _ hr
    rw [List.append_assoc]
    exact ih j _ r le (stops_cons.2 fun s hs => by cases hs; decide) (readRest_isNull le hr)
  | isNotNull _ ih =>
    intro j rest r le _ hr
    rw [List.append_assoc]
    exact ih j _ r le (stops_cons.2 fun s hs => by cases hs; decide) (readRest_isNotNull le hr)
  | not _ ih =>
    intro j rest r _ stops hr
    have operand := ih.alone Nat.le.refl (stops.of_prefix (.inl rfl))
    exact read_of_operand (readOperand_not operand) hr
  | looser _ ih =>
    intro j rest r le stops hr
    exact ih j rest r (by omega) (stops.mono (by omega)) hr

/-- The grammar is unambiguous. -/
theorem Derives.unique (ha : Derives k ts a) (hb : Derives k ts b) : a = b := by
  have stops : Stops k [] := by simp [Stops]
  have h := (ha.found.alone Nat.le.refl stops).unique (hb.found.alone Nat.le.refl stops)
  exact (Prod.mk.inj h).1

theorem DerivesAll.unique {as bs : List QueryTree} (ha : DerivesAll ts as) (hb : DerivesAll ts bs) :
    as = bs := by
  obtain ⟨ps, hps, rfl, rfl⟩ := ha
  obtain ⟨qs, hqs, same, rfl⟩ := hb
  have first : Settles (readAll · (commaSeparated (ps.map Prod.fst) ++ [token .rightParen])) _ :=
    readAll_parts fun p hp => (hps p hp).found
  rw [← same] at first
  exact congrArg Prod.fst (first.unique (readAll_parts fun p hp => (hqs p hp).found))

end QueryTree
end EntityQuery
