import EntityQuery.Proofs.Failure
import EntityQuery.Proofs.Number.Numeral
import EntityQuery.Settings.Basic

/-! References to variables. A text is taken apart in one pass from left to right: wherever a
reference begins it is taken, and all other characters stay. The values of the references then stand
in their places, or the first variable that has no text is reported. -/
namespace EntityQuery.Environment

/-! ### References -/

/-- Letters and digits of ASCII, and the underscore. -/
def NameChar (c : Char) : Prop :=
  'A' ≤ c ∧ c ≤ 'Z' ∨ 'a' ≤ c ∧ c ≤ 'z' ∨ '0' ≤ c ∧ c ≤ '9' ∨ c = '_'

/-- The text begins with a reference to the name, and `rest` is what follows the reference. -/
inductive Refers : List Char → String → List Char → Prop
  /-- The first closing brace ends the name. -/
  | braced {name rest : List Char} (inside : '\x7d' ∉ name) :
    Refers ('$' :: '\x7b' :: (name ++ '\x7d' :: rest)) (String.ofList name) rest
  /-- The name goes on as far as it can. -/
  | bare {name rest : List Char} (some : name ≠ []) (inside : ∀ c ∈ name, NameChar c)
    (stops : ∀ c ∈ rest.head?, ¬NameChar c) :
    Refers ('$' :: (name ++ rest)) (String.ofList name) rest

section References

variable {c : Char} {cs rest : List Char} {name : String}

theorem isNameChar_iff : isNameChar c ↔ NameChar c := by
  have ranges : isNameChar c = (decide ('A' ≤ c ∧ c ≤ 'Z') ||
      decide ('a' ≤ c) && decide (c ≤ 'z') || decide ('0' ≤ c) && decide (c ≤ '9') ||
      c == '_') := rfl
  simp only [ranges, NameChar, Bool.or_eq_true, Bool.and_eq_true, decide_eq_true_eq, beq_iff_eq,
    or_assoc]

theorem all_inside_iff : (∀ c ∈ cs, !isClosingBrace c) ↔ '\x7d' ∉ cs := by
  simp only [isClosingBrace, Bool.not_eq_true', beq_eq_false_iff_ne]
  exact ⟨fun all mem => all _ mem rfl, fun none c mem same => none (same ▸ mem)⟩

theorem braced?_eq_some_iff : braced? cs = some (name, rest) ↔
    ∃ inside, '\x7d' ∉ inside ∧ cs = inside ++ '\x7d' :: rest ∧ String.ofList inside = name := by
  have munch (inside : List Char) :
      cs = inside ++ '\x7d' :: rest ∧ '\x7d' ∉ inside ↔
        cs.takeWhile (fun c => !isClosingBrace c) = inside ∧
          cs.dropWhile (fun c => !isClosingBrace c) = '\x7d' :: rest := by
    rw [Number.munch_iff, all_inside_iff]
    simp [isClosingBrace]
  unfold braced?
  constructor
  · intro h
    split at h
    · cases h
    · next brace after dropped =>
      obtain ⟨rfl, rfl⟩ := Prod.mk.inj (Option.some.inj h)
      have closing := List.head?_dropWhile_not (fun c => !isClosingBrace c) cs
      rw [dropped] at closing
      obtain rfl : brace = '\x7d' := by simpa [isClosingBrace] using closing
      obtain ⟨split, inside⟩ := (munch _).2 ⟨rfl, dropped⟩
      exact ⟨_, inside, split, rfl⟩
  · rintro ⟨inside, none, split, rfl⟩
    obtain ⟨taken, dropped⟩ := (munch inside).1 ⟨split, none⟩
    rw [dropped, taken]

theorem bare?_eq_some_iff : bare? cs = some (name, rest) ↔
    ∃ letters, letters ≠ [] ∧ (∀ c ∈ letters, NameChar c) ∧ (∀ c ∈ rest.head?, ¬NameChar c) ∧
      cs = letters ++ rest ∧ String.ofList letters = name := by
  have munch (letters : List Char) :
      cs = letters ++ rest ∧ (∀ c ∈ letters, NameChar c) ∧ (∀ c ∈ rest.head?, ¬NameChar c) ↔
        cs.takeWhile isNameChar = letters ∧ cs.dropWhile isNameChar = rest := by
    simp only [Number.munch_iff, ← isNameChar_iff, Bool.not_eq_true]
  unfold bare?
  constructor
  · intro h
    split at h
    · cases h
    · next some =>
      obtain ⟨rfl, rfl⟩ := Prod.mk.inj (Option.some.inj h)
      obtain ⟨split, inside, stops⟩ := (munch _).2 ⟨rfl, rfl⟩
      exact ⟨_, some, inside, stops, split, rfl⟩
  · rintro ⟨letters, some, inside, stops, split, rfl⟩
    obtain ⟨taken, dropped⟩ := (munch letters).1 ⟨split, inside, stops⟩
    rw [taken, dropped]
    split
    · exact absurd rfl some
    · rfl

/-- No name begins with a brace, so a reference is of one form only. -/
theorem refers_iff : Refers ('$' :: cs) name rest ↔ reference? cs = some (name, rest) := by
  constructor
  · generalize whole : '$' :: cs = text
    rintro (⟨inside⟩ | @⟨letters, rest, some, inside, stops⟩)
    · obtain rfl := (List.cons.inj whole).2
      exact braced?_eq_some_iff.2 ⟨_, inside, rfl, rfl⟩
    · obtain rfl := (List.cons.inj whole).2
      obtain ⟨c, others, rfl⟩ := List.exists_cons_of_ne_nil some
      have first := isNameChar_iff.2 (inside c List.mem_cons_self)
      have other : isOpeningBrace c = false := by
        refine Bool.eq_false_iff.2 fun brace => ?_
        obtain rfl : c = '\x7b' := eq_of_beq brace
        cases first
      rw [List.cons_append, reference?, if_neg (by simp [other])]
      exact bare?_eq_some_iff.2 ⟨_, some, inside, stops, rfl, rfl⟩
  · intro h
    cases cs with
    | nil => cases h
    | cons c cs =>
      rw [reference?] at h
      split at h
      · next brace =>
        obtain rfl : c = '\x7b' := eq_of_beq brace
        obtain ⟨inside, none, rfl, rfl⟩ := braced?_eq_some_iff.1 h
        exact .braced none
      · obtain ⟨letters, some, inside, stops, same, rfl⟩ := bare?_eq_some_iff.1 h
        rw [same]
        exact .bare some inside stops

theorem Refers.cons (h : Refers cs name rest) : ∃ behind, cs = '$' :: behind := by
  cases h <;> exact ⟨_, rfl⟩

end References

/-! ### The pass -/

/-- The text taken apart: wherever a reference begins it is taken and the pass goes on behind it,
and any other character is taken alone. -/
inductive Scanned : List Char → List Piece → Prop
  | done : Scanned [] []
  | reference {cs rest : List Char} {name : String} {ps : List Piece} (refers : Refers cs name rest)
    (behind : Scanned rest ps) : Scanned cs (.reference name :: ps)
  | plain {c : Char} {cs : List Char} {ps : List Piece}
    (none : ∀ name rest, ¬Refers (c :: cs) name rest) (behind : Scanned cs ps) :
    Scanned (c :: cs) (.plain c :: ps)

theorem pieces_reference {cs rest : List Char} {name : String} (h : Refers cs name rest) :
    pieces cs = .reference name :: pieces rest := by
  obtain ⟨behind, rfl⟩ := h.cons
  have found := refers_iff.1 h
  rw [pieces, if_pos rfl]
  split
  · next other after same =>
    rw [found] at same
    obtain ⟨rfl, rfl⟩ := Prod.mk.inj (Option.some.inj same)
    rfl
  · next none => cases none.symm.trans found

theorem pieces_plain {c : Char} {cs : List Char} (h : ∀ name rest, ¬Refers (c :: cs) name rest) :
    pieces (c :: cs) = .plain c :: pieces cs := by
  rw [pieces]
  split
  · next dollar =>
    subst dollar
    split
    · next found => exact absurd (refers_iff.2 found) (h _ _)
    · rfl
  · rfl

/-- There is one way to take a text apart. -/
theorem scanned_iff {cs : List Char} {ps : List Piece} : Scanned cs ps ↔ ps = pieces cs := by
  constructor
  · intro h
    induction h with
    | done => rw [pieces]
    | reference refers _ ih => rw [pieces_reference refers, ih]
    | plain none _ ih => rw [pieces_plain none, ih]
  · rintro rfl
    induction cs using pieces.induct with
    | case1 =>
      rw [pieces]
      exact .done
    | case2 cs name rest found _ ih =>
      have refers := refers_iff.2 found
      rw [pieces_reference refers]
      exact .reference refers ih
    | case3 cs found ih =>
      have none (name : String) (rest : List Char) : ¬Refers ('$' :: cs) name rest := fun refers => by
        cases found.symm.trans (refers_iff.1 refers)
      rw [pieces_plain none]
      exact .plain none ih
    | case4 c cs other ih =>
      have none (name : String) (rest : List Char) : ¬Refers (c :: cs) name rest := fun refers => by
        obtain ⟨behind, same⟩ := refers.cons
        exact other (List.cons.inj same).1
      rw [pieces_plain none]
      exact .plain none ih

/-! ### Values -/

/-- What stands in the place of a piece. The value of a variable is not taken apart again. -/
inductive Stands (env : Environment) : Piece → List Char → Prop
  | plain (c : Char) : Stands env (.plain c) [c]
  | value {name value : String} (set : env name = .text value) :
    Stands env (.reference name) value.toList

/-- No text is found under the name: the variable is not set, or its value is no text. -/
def Lacks (env : Environment) (name : String) : Prop :=
  env name = .unset ∨ env name = .notUnicode

section Values

variable {env : Environment} {name : String} {text : String}

theorem value_ok_iff {p : Piece} {cs : List Char} : p.value env = .ok cs ↔ Stands env p cs := by
  cases p with
  | plain c =>
    constructor
    · rintro ⟨⟩
      exact .plain c
    · rintro ⟨⟩
      rfl
  | reference name =>
    rw [Piece.value]
    constructor
    · intro h
      split at h
      · next set =>
        obtain rfl := Except.ok.inj h
        exact .value set
      · cases h
    · rintro ⟨⟩
      next value set => rw [set]

theorem value_error_iff {p : Piece} :
    p.value env = .error name ↔ p = .reference name ∧ Lacks env name := by
  cases p with
  | plain c => simp [Piece.value]
  | reference other =>
    rw [Piece.value, Lacks]
    constructor
    · intro h
      split at h
      · cases h
      · next no_text =>
        obtain rfl := Except.error.inj h
        refine ⟨rfl, ?_⟩
        cases found : env other with
        | unset => exact .inl rfl
        | notUnicode => exact .inr rfl
        | text value => exact absurd found (no_text value)
    · rintro ⟨⟨⟩, unset | notUnicode⟩
      · rw [unset]
      · rw [notUnicode]

theorem expand_ok_iff {out : String} : env.expand text = .ok out ↔
    ∃ parts, List.Forall₂ (Stands env) (pieces text.toList) parts ∧
      String.ofList parts.flatten = out := by
  simp only [expand, bind_ok_iff, mapM_ok_iff, value_ok_iff]
  constructor
  · rintro ⟨parts, stand, same⟩
    exact ⟨parts, stand, Except.ok.inj same⟩
  · rintro ⟨parts, stand, rfl⟩
    exact ⟨parts, stand, rfl⟩

/-- The first reference to a variable that has no text is reported. -/
theorem expand_error_iff : env.expand text = .error name ↔
    ∃ before after, pieces text.toList = before ++ .reference name :: after ∧
      Lacks env name ∧ ∀ other, .reference other ∈ before → ∃ value, env other = .text value := by
  have good (before : List Piece) : (∀ p ∈ before, ∃ cs, p.value env = .ok cs) ↔
      ∀ other, .reference other ∈ before → ∃ value, env other = .text value := by
    constructor
    · intro all other mem
      obtain ⟨cs, ok⟩ := all _ mem
      cases value_ok_iff.1 ok with
      | value set => exact ⟨_, set⟩
    · intro all p mem
      cases p with
      | plain c => exact ⟨_, rfl⟩
      | reference other =>
        obtain ⟨value, set⟩ := all other mem
        exact ⟨_, value_ok_iff.2 (.value set)⟩
  have pass : env.expand text = .error name ↔
      (pieces text.toList).mapM (Piece.value env) = .error name := by
    rw [expand, bind_error_iff, or_iff_left]
    rintro ⟨parts, -, ⟨⟩⟩
  simp only [pass, mapM_error_iff, good, value_error_iff]
  constructor
  · rintro ⟨before, _, after, split, ⟨rfl, lacks⟩, others⟩
    exact ⟨before, after, split, lacks, others⟩
  · rintro ⟨before, after, split, lacks, others⟩
    exact ⟨before, _, after, split, ⟨rfl, lacks⟩, others⟩

/-- Reading settings fails for a variable exactly if its references are not expanded. -/
theorem ofText_error_iff {read? : String → Option Json} :
    Settings.ofText read? env text = .error (.missingVariable name) ↔
      env.expand text = .error name := by
  rw [Settings.ofText]
  cases env.expand text with
  | error other => simp [Except.mapError, bind, Except.bind]
  | ok expanded =>
    simp only [Except.mapError, bind, Except.bind, reduceCtorEq, iff_false]
    split <;> nofun

/-- Expanding is one pass from left to right. There is one way to take references and other
characters of the text in turn. If all variables have text, that stands in the places of the
references and everything else stays. Otherwise the first is reported that is not set or has a
value that is no text, also when settings are read, by whatever reader of documents. -/
theorem expand_scans (env : Environment) (text : String) :
    ∃ ps, (∀ qs, Scanned text.toList qs ↔ qs = ps) ∧
      (∀ out, env.expand text = .ok out ↔
        ∃ parts, List.Forall₂ (Stands env) ps parts ∧ String.ofList parts.flatten = out) ∧
      (∀ name, env.expand text = .error name ↔
        ∃ before after, ps = before ++ .reference name :: after ∧
          Lacks env name ∧ ∀ other, .reference other ∈ before → ∃ value, env other = .text value) ∧
      ∀ read? name, Settings.ofText read? env text = .error (.missingVariable name) ↔
        env.expand text = .error name :=
  ⟨pieces text.toList, fun _ => scanned_iff, fun _ => expand_ok_iff, fun _ => expand_error_iff,
    fun _ _ => ofText_error_iff⟩

/-- One variable has a value, and that is no text. -/
def bytesOnly : Environment := fun name => if name = "X" then .notUnicode else .unset

/-- The variable is set, and a text that refers to no other is refused for it. -/
theorem expand_error_of_set : bytesOnly.expand "$X" = .error "X" ∧
    ∀ name, .reference name ∈ pieces "$X".toList → bytesOnly name ≠ .unset := by
  have refers : Refers ['$', 'X'] "X" [] :=
    .bare (List.cons_ne_nil 'X' []) (by simp [NameChar]) nofun
  have parts : pieces "$X".toList = [.reference "X"] :=
    (scanned_iff.1 (.reference refers .done)).symm
  refine ⟨?_, fun name mem => ?_⟩
  · rw [expand, parts]
    rfl
  · rw [parts] at mem
    obtain rfl : name = "X" := by simpa using mem
    decide

/-- A value is not expanded again, and a dollar sign before no name stays. -/
example : expand (fun name => .text (if name = "A" then "$B" else "b")) "$ $A/$B." =
    .ok "$ $B/b." := by cbv

end Values

end EntityQuery.Environment
