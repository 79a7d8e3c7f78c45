import EntityQuery.Json.Reader
import EntityQuery.Proofs.Libraries.Numerals
import EntityQuery.Proofs.Number.Reading

/-! The compact text of a document tells what the document is, but for the floats that are not
finite, which are written as null. Texts and numbers show where they end, and a float shows that it
is no whole number, so documents share a text only if they are the same with null for such
floats. -/
namespace EntityQuery.Json

/-- An escaped character is read back as one piece, which stands for the character. -/
theorem readPieces_escapeChar (c : Char) : ∃ p,
    (∀ rest, readPieces (escapeChar c ++ rest) =
      (readPieces rest).map fun found => (p :: found.1, found.2)) ∧
    ∀ ps, joinPieces (p :: ps) = (joinPieces ps).map (c :: ·) := by
  have bind_map (rest : List Char) (p : Piece) :
      ((readPieces rest).bind fun found => some (p :: found.1, found.2)) =
        (readPieces rest).map fun found => (p :: found.1, found.2) := by
    cases readPieces rest <;> rfl
  unfold escapeChar
  split
  iterate 7 exact ⟨.plain _, fun rest => by simp [readPieces, unescape?, bind_map], fun _ => rfl⟩
  next h₁ h₂ h₃ h₄ h₅ h₆ h₇ =>
  split
  · next control =>
    have digits : ∀ n < 32,
        Number.ofHexDigits? ['0', '0', hexDigit (n / 16), hexDigit n] = some n := by
      decide
    refine ⟨.code c.toNat, fun rest => ?_, fun ps => ?_⟩
    · simp [readPieces, digits _ control, bind_map]
    · have high : isHighSurrogate c.toNat = false := by simp [isHighSurrogate]; omega
      have low : isLowSurrogate c.toNat = false := by simp [isLowSurrogate]; omega
      rw [joinPieces.eq_def]
      simp [high, low]
  · next printed =>
    refine ⟨.plain c, fun rest => ?_, fun _ => rfl⟩
    rw [List.singleton_append, readPieces]
    · have other : c ≠ '\\' := h₂
      simp [printed, other, bind_map]
    all_goals simp_all

/-- A text in a document is read back, whatever follows. -/
theorem readString_stringChars (s : String) (rest : List Char) :
    readString (s.toList.flatMap escapeChar ++ '"' :: rest) = some (s, rest) := by
  have pieces (cs : List Char) : ∃ ps,
      readPieces (cs.flatMap escapeChar ++ '"' :: rest) = some (ps, rest) ∧
        joinPieces ps = some cs := by
    induction cs with
    | nil => exact ⟨[], rfl, rfl⟩
    | cons c cs ih =>
      obtain ⟨p, hread, hjoin⟩ := readPieces_escapeChar c
      obtain ⟨ps, hps, hcs⟩ := ih
      refine ⟨p :: ps, ?_, by rw [hjoin, hcs]; rfl⟩
      rw [List.flatMap_cons, List.append_assoc, hread, hps]
      rfl
  obtain ⟨ps, hread, hjoin⟩ := pieces s.toList
  simp [readString, hread, hjoin]

theorem stringChars_append_inj {s t : String} {r u : List Char}
    (h : stringChars s ++ r = stringChars t ++ u) : s = t ∧ r = u := by
  simp only [stringChars, List.cons_append, List.append_assoc, List.nil_append, List.cons.injEq,
    true_and] at h
  have read := readString_stringChars s r
  rw [h, readString_stringChars t u] at read
  obtain ⟨rfl, rfl⟩ := Prod.mk.inj (Option.some.inj read)
  exact ⟨rfl, rfl⟩

/-- The characters of numbers. -/
def isNumeric (c : Char) : Bool := c.isDigit || c == '.' || c == 'e' || c == '+' || c == '-'

/-- Nothing that would go on a number. -/
def Ends (r : List Char) : Prop := ∀ c ∈ r.head?, isNumeric c = false

theorem isNumeric_of_isDigit {c : Char} (h : c.isDigit) : isNumeric c := by
  rw [isNumeric, h]
  rfl

/-- A number goes on as far as it can. -/
theorem number_append_inj {cs ds r u : List Char} (all : ∀ c ∈ cs, isNumeric c)
    (all' : ∀ c ∈ ds, isNumeric c) (hr : Ends r) (hu : Ends u) (h : cs ++ r = ds ++ u) :
    cs = ds ∧ r = u := by
  have same : cs = ds := by
    rw [← Number.takeWhile_append_stop all hr, h, Number.takeWhile_append_stop all' hu]
  exact ⟨same, List.append_cancel_left (same ▸ h)⟩

theorem isNumeric_signed {n : Int} {c : Char} (h : c ∈ Number.signed n) : isNumeric c := by
  rcases Number.minus_or_isDigit_of_mem_signed h with rfl | digit
  · rfl
  · exact isNumeric_of_isDigit digit

theorem isNumeric_numeral {numeral : List Char} (h : Number.Numeral numeral) {c : Char}
    (mem : c ∈ numeral) : isNumeric c := by
  obtain ⟨-, digits, point, power⟩ := h
  rcases List.mem_append.1 mem with whole | behind
  · exact isNumeric_of_isDigit (digits c whole)
  rcases List.mem_append.1 behind with fraction | exponent
  · rcases point with rfl | ⟨ds, rfl, digits⟩
    · cases fraction
    · rcases List.mem_cons.1 fraction with rfl | digit
      · rfl
      · exact isNumeric_of_isDigit (digits c digit)
  · rcases power with rfl | ⟨sign, ds, rfl, signs, -, digits⟩
    · cases exponent
    · rcases List.mem_cons.1 exponent with rfl | behind
      · rfl
      rcases List.mem_append.1 behind with marked | digit
      · rcases signs with rfl | rfl | rfl
        · cases marked
        · rw [List.mem_singleton.1 marked]
          rfl
        · rw [List.mem_singleton.1 marked]
          rfl
      · exact isNumeric_of_isDigit (digits c digit)

mutual

/-- The document that the text tells. A float that is not finite is written as null. -/
def written : Json → Json
  | float x => if Number.isFinite x then float x else null
  | array items => array (writtenItems items)
  | object fields => object (writtenFields fields)
  | j => j

def writtenItems : List Json → List Json
  | [] => []
  | item :: items => item.written :: writtenItems items

def writtenFields : List (String × Json) → List (String × Json)
  | [] => []
  | (key, value) :: fields => (key, value.written) :: writtenFields fields

end

/-- Numbers the kinds of documents that a text tells. -/
def kindNumber : Json → Nat
  | null => 0
  | float x => if Number.isFinite x then 5 else 0
  | bool _ => 1
  | string _ => 2
  | array _ => 3
  | object _ => 4
  | int _ => 5

theorem kindNumber_float_ne {x : Float} {n : Nat} (other : n ≠ 0 ∧ n ≠ 5) :
    (float x).kindNumber ≠ n := by
  rw [kindNumber]
  split
  · exact other.2.symm
  · exact other.1.symm

def leadNumber (c : Char) : Nat :=
  if c = 'n' then 0 else if c = 't' ∨ c = 'f' then 1 else if c = '"' then 2
  else if c = '[' then 3 else if c = '\x7b' then 4 else 5

theorem leadNumber_of_isNumeric {c : Char} (h : c = '-' ∨ c.isDigit) : leadNumber c = 5 := by
  have other {d : Char} (minus : d ≠ '-') (letter : d.isDigit = false) : c ≠ d := by
    rintro rfl
    rcases h with h | h
    · exact minus h
    · cases letter.symm.trans h
  rw [leadNumber, if_neg (other (by decide) (by decide)), if_neg, if_neg (other (by decide)
    (by decide)), if_neg (other (by decide) (by decide)), if_neg (other (by decide) (by decide))]
  rw [not_or]
  exact ⟨other (by decide) (by decide), other (by decide) (by decide)⟩

variable [Libraries]

mutual

/-- The text is that of the document that it tells. -/
theorem chars_written : (j : Json) → j.written.chars = j.chars
  | null | bool _ | int _ | string _ | array [] | object [] => rfl
  | float x => by
    rw [written]
    split
    · rfl
    · next infinite =>
      rw [chars, chars, floatChars, if_neg infinite]
  | array (item :: items) => by
    rw [written, writtenItems, chars, chars, chars_written item, itemChars_written items]
  | object ((key, value) :: fields) => by
    rw [written, writtenFields, chars, chars, chars_written value, fieldChars_written fields]

theorem itemChars_written : (items : List Json) → itemChars (writtenItems items) = itemChars items
  | [] => rfl
  | item :: items => by
    rw [writtenItems, itemChars, itemChars, chars_written item, itemChars_written items]

theorem fieldChars_written : (fields : List (String × Json)) →
    fieldChars (writtenFields fields) = fieldChars fields
  | [] => rfl
  | (key, value) :: fields => by
    rw [writtenFields, fieldChars, fieldChars, chars_written value, fieldChars_written fields]

end

theorem ends_itemChars (items : List Json) (r : List Char) : Ends (itemChars items ++ r) := by
  cases items <;> simp [Ends, itemChars, isNumeric]

theorem ends_fieldChars (fields : List (String × Json)) (r : List Char) :
    Ends (fieldChars fields ++ r) := by
  cases fields <;> simp [Ends, fieldChars, isNumeric]

theorem null_append_inj {j k : Json} {r u : List Char} (null : j.kindNumber = 0)
    (null' : k.kindNumber = 0) (h : j.chars ++ r = k.chars ++ u) :
    j.written = k.written ∧ r = u := by
  have told {j : Json} (null : j.kindNumber = 0) :
      j.written = .null ∧ j.chars = ['n', 'u', 'l', 'l'] := by
    cases j with
    | null => exact ⟨rfl, rfl⟩
    | float x =>
      have infinite : ¬Number.isFinite x := by
        intro finite
        rw [kindNumber, if_pos finite] at null
        cases null
      exact ⟨if_neg infinite, if_neg infinite⟩
    | _ => cases null
  rw [(told null).2, (told null').2] at h
  exact ⟨(told null).1.trans (told null').1.symm, List.append_cancel_left h⟩

section Numbers

variable [Libraries.JsonNumerals]

theorem isNumeric_floatChars {x : Float} (finite : Number.isFinite x) {c : Char}
    (h : c ∈ floatChars x) : isNumeric c := by
  obtain ⟨numeral, isNumeral, written⟩ := Libraries.JsonNumerals.signed x finite
  rw [floatChars, if_pos finite, written] at h
  split at h
  · rcases List.mem_cons.1 h with rfl | mem
    · rfl
    · exact isNumeric_numeral isNumeral mem
  · exact isNumeric_numeral isNumeral h

/-- No float is written like a whole number. -/
theorem floatChars_ne_signed {x : Float} (finite : Number.isFinite x) (n : Int) :
    floatChars x ≠ Number.signed n := by
  rw [floatChars, if_pos finite]
  intro same
  have whole {c : Char} (mem : c ∈ Libraries.jsonNumber x) : c = '-' ∨ c.isDigit :=
    Number.minus_or_isDigit_of_mem_signed (same ▸ mem)
  rcases Libraries.JsonNumerals.marked finite with point | exponent
  · cases whole point <;> contradiction
  · cases whole exponent <;> contradiction

/-- The first character tells the kind. -/
theorem chars_cons : (j : Json) →
    ∃ c cs, j.chars = c :: cs ∧ leadNumber c = j.kindNumber ∧ c ≠ ']'
  | null => ⟨_, _, rfl, rfl, by decide⟩
  | bool true | bool false => ⟨_, _, rfl, rfl, by decide⟩
  | string _ => ⟨_, _, rfl, rfl, by decide⟩
  | array [] | array (_ :: _) => ⟨_, _, rfl, rfl, by decide⟩
  | object [] | object ((_, _) :: _) => ⟨_, _, rfl, rfl, by decide⟩
  | int n => by
    obtain ⟨c, cs, figures, digit⟩ := Number.digits_cons n.natAbs
    rw [chars, Number.signed]
    split
    · exact ⟨_, _, rfl, rfl, by decide⟩
    · refine ⟨c, cs, figures, leadNumber_of_isNumeric (.inr digit), ?_⟩
      rintro rfl
      cases digit
  | float x => by
    rw [chars, floatChars, kindNumber]
    split
    · next finite =>
      obtain ⟨numeral, isNumeral, written⟩ := Libraries.JsonNumerals.signed x finite
      obtain ⟨c, cs, rfl, digit⟩ := isNumeral.cons
      rw [written]
      split
      · exact ⟨_, _, rfl, rfl, by decide⟩
      · refine ⟨c, cs, rfl, leadNumber_of_isNumeric (.inr digit), ?_⟩
        rintro rfl
        cases digit
    · exact ⟨_, _, rfl, rfl, by decide⟩

theorem kindNumber_eq {j k : Json} {r u : List Char} (h : j.chars ++ r = k.chars ++ u) :
    j.kindNumber = k.kindNumber := by
  obtain ⟨c, cs, first, kind, -⟩ := j.chars_cons
  obtain ⟨d, ds, second, kind', -⟩ := k.chars_cons
  rw [first, second] at h
  rw [← kind, ← kind', (List.cons.inj h).1]

theorem numeric_append_inj {j k : Json} {r u : List Char} (number : j.kindNumber = 5)
    (number' : k.kindNumber = 5) (hr : Ends r) (hu : Ends u) (h : j.chars ++ r = k.chars ++ u) :
    j.written = k.written ∧ r = u := by
  have finite {x : Float} (number : (float x).kindNumber = 5) : Number.isFinite x := by
    by_contra infinite
    rw [kindNumber, if_neg infinite] at number
    cases number
  have all {j : Json} (number : j.kindNumber = 5) : ∀ c ∈ j.chars, isNumeric c := by
    cases j with
    | int n => exact fun c => isNumeric_signed
    | float x => exact fun c => isNumeric_floatChars (finite number)
    | _ => cases number
  obtain ⟨same, rfl⟩ := number_append_inj (all number) (all number') hr hu h
  refine ⟨?_, rfl⟩
  cases j with
  | int m =>
    cases k with
    | int n => rw [Number.signed_injective same]
    | float y => exact absurd same.symm (floatChars_ne_signed (finite number') m)
    | _ => cases number'
  | float x =>
    cases k with
    | int n => exact absurd same (floatChars_ne_signed (finite number) n)
    | float y =>
      rw [chars, chars, floatChars, floatChars, if_pos (finite number),
        if_pos (finite number')] at same
      rw [Libraries.JsonNumerals.injective (finite number) (finite number') same]
    | _ => cases number'
  | _ => cases number

end Numbers

mutual

/-- A document shows where its text ends, and what is written tells which document. -/
theorem chars_append_inj [Libraries.JsonNumerals] : (j k : Json) → (r u : List Char) →
    Ends r → Ends u → j.chars ++ r = k.chars ++ u → j.written = k.written ∧ r = u
  | null, k, r, u, _, _, h => null_append_inj rfl (kindNumber_eq h).symm h
  | int n, k, r, u, hr, hu, h => numeric_append_inj rfl (kindNumber_eq h).symm hr hu h
  | float x, k, r, u, hr, hu, h => by
    have kind := kindNumber_eq h
    by_cases finite : Number.isFinite x
    · have number : (float x).kindNumber = 5 := if_pos finite
      exact numeric_append_inj number (kind.symm.trans number) hr hu h
    · have null : (float x).kindNumber = 0 := if_neg finite
      exact null_append_inj null (kind.symm.trans null) h
  | bool b, k, r, u, _, _, h => by
    have kind := kindNumber_eq h
    cases k with
    | bool b' => cases b <;> cases b' <;> simp_all [chars]
    | float y => exact absurd kind.symm (kindNumber_float_ne (by simp [kindNumber]))
    | _ => cases kind
  | string s, k, r, u, _, _, h => by
    have kind := kindNumber_eq h
    cases k with
    | string s' =>
      obtain ⟨rfl, rfl⟩ := stringChars_append_inj h
      exact ⟨rfl, rfl⟩
    | float y => exact absurd kind.symm (kindNumber_float_ne (by simp [kindNumber]))
    | _ => cases kind
  | array items, k, r, u, _, _, h => by
    have kind := kindNumber_eq h
    cases k with
    | array items' =>
      obtain ⟨same, rfl⟩ := arrayChars_append_inj items items' r u h
      rw [written, written, same]
      exact ⟨rfl, rfl⟩
    | float y => exact absurd kind.symm (kindNumber_float_ne (by simp [kindNumber]))
    | _ => cases kind
  | object fields, k, r, u, _, _, h => by
    have kind := kindNumber_eq h
    cases k with
    | object fields' =>
      obtain ⟨same, rfl⟩ := objectChars_append_inj fields fields' r u h
      rw [written, written, same]
      exact ⟨rfl, rfl⟩
    | float y => exact absurd kind.symm (kindNumber_float_ne (by simp [kindNumber]))
    | _ => cases kind

theorem arrayChars_append_inj [Libraries.JsonNumerals] : (items items' : List Json) →
    (r u : List Char) → (array items).chars ++ r = (array items').chars ++ u →
    writtenItems items = writtenItems items' ∧ r = u
  | [], [], _, _, h => ⟨rfl, List.append_cancel_left h⟩
  | [], item :: _, _, _, h => by
    obtain ⟨c, cs, first, -, bracket⟩ := item.chars_cons
    simp only [chars, first, List.cons_append, List.nil_append, List.cons.injEq, true_and] at h
    exact absurd h.1.symm bracket
  | item :: _, [], _, _, h => by
    obtain ⟨c, cs, first, -, bracket⟩ := item.chars_cons
    simp only [chars, first, List.cons_append, List.nil_append, List.cons.injEq, true_and] at h
    exact absurd h.1 bracket
  | item :: items, item' :: items', r, u, h => by
    simp only [chars, List.cons_append, List.append_assoc, List.cons.injEq, true_and] at h
    obtain ⟨same, rest⟩ := chars_append_inj item item' _ _ (ends_itemChars items r)
      (ends_itemChars items' u) h
    obtain ⟨others, rfl⟩ := itemChars_append_inj items items' r u rest
    rw [writtenItems, writtenItems, same, others]
    exact ⟨rfl, rfl⟩

theorem objectChars_append_inj [Libraries.JsonNumerals] : (fields fields' : List (String × Json)) →
    (r u : List Char) → (object fields).chars ++ r = (object fields').chars ++ u →
    writtenFields fields = writtenFields fields' ∧ r = u
  | [], [], _, _, h => ⟨rfl, List.append_cancel_left h⟩
  | [], (_, _) :: _, _, _, h => by simp [chars, stringChars] at h
  | (_, _) :: _, [], _, _, h => by simp [chars, stringChars] at h
  | (key, value) :: fields, (key', value') :: fields', r, u, h => by
    simp only [chars, List.cons_append, List.append_assoc, List.cons.injEq, true_and] at h
    obtain ⟨rfl, behind⟩ := stringChars_append_inj h
    obtain ⟨same, rest⟩ := chars_append_inj value value' _ _ (ends_fieldChars fields r)
      (ends_fieldChars fields' u) (List.cons.inj behind).2
    obtain ⟨others, rfl⟩ := fieldChars_append_inj fields fields' r u rest
    rw [writtenFields, writtenFields, same, others]
    exact ⟨rfl, rfl⟩

theorem itemChars_append_inj [Libraries.JsonNumerals] : (items items' : List Json) →
    (r u : List Char) → itemChars items ++ r = itemChars items' ++ u →
    writtenItems items = writtenItems items' ∧ r = u
  | [], [], _, _, h => ⟨rfl, (List.cons.inj h).2⟩
  | [], _ :: _, _, _, h => by simp [itemChars] at h
  | _ :: _, [], _, _, h => by simp [itemChars] at h
  | item :: items, item' :: items', r, u, h => by
    simp only [itemChars, List.cons_append, List.append_assoc, List.cons.injEq, true_and] at h
    obtain ⟨same, rest⟩ := chars_append_inj item item' _ _ (ends_itemChars items r)
      (ends_itemChars items' u) h
    obtain ⟨others, rfl⟩ := itemChars_append_inj items items' r u rest
    rw [writtenItems, writtenItems, same, others]
    exact ⟨rfl, rfl⟩

theorem fieldChars_append_inj [Libraries.JsonNumerals] : (fields fields' : List (String × Json)) →
    (r u : List Char) → fieldChars fields ++ r = fieldChars fields' ++ u →
    writtenFields fields = writtenFields fields' ∧ r = u
  | [], [], _, _, h => ⟨rfl, (List.cons.inj h).2⟩
  | [], (_, _) :: _, _, _, h => by simp [fieldChars] at h
  | (_, _) :: _, [], _, _, h => by simp [fieldChars] at h
  | (key, value) :: fields, (key', value') :: fields', r, u, h => by
    simp only [fieldChars, List.cons_append, List.append_assoc, List.cons.injEq, true_and] at h
    obtain ⟨rfl, behind⟩ := stringChars_append_inj h
    obtain ⟨same, rest⟩ := chars_append_inj value value' _ _ (ends_fieldChars fields r)
      (ends_fieldChars fields' u) (List.cons.inj behind).2
    obtain ⟨others, rfl⟩ := fieldChars_append_inj fields fields' r u rest
    rw [writtenFields, writtenFields, same, others]
    exact ⟨rfl, rfl⟩

end

/-- Two documents have one text exactly if they are written as one. -/
theorem compact_eq_iff [Libraries.JsonNumerals] {j k : Json} :
    j.compact = k.compact ↔ j.written = k.written := by
  constructor
  · intro h
    have ends : Ends [] := fun c hc => by cases hc
    have same : j.chars ++ [] = k.chars ++ [] := by
      rw [List.append_nil, List.append_nil]
      exact String.ofList_injective h
    exact (chars_append_inj j k [] [] ends ends same).1
  · intro h
    rw [compact, compact, ← chars_written j, h, chars_written k]

end EntityQuery.Json
