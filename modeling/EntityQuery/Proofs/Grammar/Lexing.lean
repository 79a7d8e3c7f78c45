import EntityQuery.Grammar.Lexeme
import EntityQuery.Proofs.Number.Numeral
import Mathlib.Data.List.TakeWhile

/-! How text is split into lexemes, with its comments. A word, a parameter, a numeral, a string or a
mark at the front of a text is scanned as a whole if what follows does not go on with it. -/
namespace EntityQuery.Grammar

open Number (Numeral takeWhile_append_stop dropWhile_append_stop)

/-- What a text consists of besides blanks. -/
inductive Piece where
  | lexeme (l : Lexeme)
  | comment (text : String)
deriving Repr, DecidableEq

def Piece.lexeme? : Piece → Option Lexeme
  | lexeme l => some l
  | comment _ => none

/-- Lexing that does not pass over comments. -/
def piecesFrom : Nat → List Char → Option (List Piece)
  | _, [] => some []
  | 0, _ => none
  | fuel + 1, '-' :: '-' :: rest =>
    (piecesFrom fuel (rest.dropWhile (· != '\n'))).map
      (.comment (String.ofList (rest.takeWhile (· != '\n'))) :: ·)
  | fuel + 1, c :: rest =>
    if Text.isBlank c then piecesFrom fuel rest
    else do
      let (lexeme, rest) ← scan (c :: rest)
      some (.lexeme lexeme :: (← piecesFrom fuel rest))

/-- The lexemes and comments of a text. -/
def pieces (text : String) : Option (List Piece) := piecesFrom text.length text.toList

/-- Lexing finds the lexemes among the pieces. -/
theorem lexFrom_eq (fuel : Nat) (cs : List Char) :
    lexFrom fuel cs = (piecesFrom fuel cs).map (List.filterMap Piece.lexeme?) := by
  induction fuel, cs using piecesFrom.induct with
  | case1 fuel => simp [lexFrom, piecesFrom]
  | case2 cs nonempty => cases cs <;> simp_all [lexFrom, piecesFrom]
  | case3 fuel rest ih =>
    rw [lexFrom, piecesFrom, ih, Option.map_map]
    rfl
  | case4 fuel c rest single blank ih =>
    rw [lexFrom, piecesFrom, if_pos blank, if_pos blank, ih]
    all_goals exact single
  | case5 fuel c rest single plain ih =>
    rw [lexFrom, piecesFrom, if_neg plain, if_neg plain]
    · cases scan (c :: rest) with
      | none => rfl
      | some found =>
        obtain ⟨l, rest'⟩ := found
        have later := ih rest'
        simp only [Option.bind_eq_bind, Option.bind_some]
        rw [later]
        cases piecesFrom fuel rest' <;> rfl
    all_goals exact single

theorem lex_eq (text : String) : lex text = (pieces text).map (List.filterMap Piece.lexeme?) :=
  lexFrom_eq _ _

/-- A text without comments that is read as lexemes. -/
inductive Reads : List Char → List Lexeme → Prop
  | nil : Reads [] []
  | blank {c : Char} {cs : List Char} {ls : List Lexeme} (h : Text.isBlank c)
    (rest : Reads cs ls) : Reads (c :: cs) ls
  | lexeme {c : Char} {text cs : List Char} {l : Lexeme} {ls : List Lexeme}
    (plain : Text.isBlank c = false) (single : c = '-' → (text ++ cs).head? ≠ some '-')
    (scanned : scan (c :: (text ++ cs)) = some (l, cs)) (rest : Reads cs ls) :
    Reads (c :: (text ++ cs)) (l :: ls)

theorem Reads.piecesFrom {cs : List Char} {ls : List Lexeme} (h : Reads cs ls) {fuel : Nat}
    (enough : cs.length ≤ fuel) : piecesFrom fuel cs = some (ls.map .lexeme) := by
  induction h generalizing fuel with
  | nil => simp [Grammar.piecesFrom]
  | @blank c cs ls h rest ih =>
    obtain ⟨fuel, rfl⟩ := Nat.exists_eq_succ_of_ne_zero (Nat.ne_of_gt (Nat.lt_of_lt_of_le
      (Nat.succ_pos _) enough))
    have shorter : cs.length ≤ fuel := Nat.le_of_succ_le_succ enough
    have single : ∀ rest', c = '-' → cs = '-' :: rest' → False := by
      rintro _ rfl -
      cases h
    rw [Grammar.piecesFrom, if_pos h, ih shorter]
    exact single
  | @lexeme c text cs l ls plain single scanned rest ih =>
    obtain ⟨fuel, rfl⟩ := Nat.exists_eq_succ_of_ne_zero (Nat.ne_of_gt (Nat.lt_of_lt_of_le
      (Nat.succ_pos _) enough))
    have shorter : cs.length ≤ fuel := by
      rw [List.length_cons, List.length_append] at enough
      omega
    have alone : ∀ rest', c = '-' → text ++ cs = '-' :: rest' → False := by
      intro rest' minus second
      exact single minus (by rw [second]; rfl)
    rw [Grammar.piecesFrom, if_neg (by simp [plain]), scanned]
    · simp only [Option.bind_eq_bind, Option.bind_some, ih shorter, List.map_cons]
    · exact alone

theorem Reads.pieces {text : String} {ls : List Lexeme} (h : Reads text.toList ls) :
    pieces text = some (ls.map .lexeme) :=
  h.piecesFrom (Nat.le_of_eq String.length_toList)

/-! ### Characters -/

section Characters

variable {c : Char}

theorem toNat_of_isAlpha (h : c.isAlpha) : 65 ≤ c.toNat ∧ c.toNat ≤ 122 := by
  rcases Bool.or_eq_true_iff.1 h with upper | lower
  · have range : 65 ≤ c.toNat ∧ c.toNat ≤ 90 := of_decide_eq_true upper
    omega
  · obtain ⟨low, high⟩ := Bool.and_eq_true_iff.1 lower
    have low : 97 ≤ c.toNat := of_decide_eq_true low
    have high : c.toNat ≤ 122 := of_decide_eq_true high
    omega

theorem isBlank_of_visible (low : 33 ≤ c.toNat) (high : c.toNat < 127) :
    Text.isBlank c = false := by
  have ascii : ∀ n < 127, 33 ≤ n → Text.blanks.any (fun r => r.1 ≤ n && n ≤ r.2) = false := by
    decide
  exact ascii c.toNat high low

theorem isWordPart_of_isDigit (h : c.isDigit) : isWordPart c := by simp [isWordPart, h]

theorem isWordStart_of_isDigit (h : c.isDigit) : isWordStart c = false := by
  obtain ⟨low, high⟩ := Char.isDigit_iff_toNat.1 h
  change 48 ≤ c.toNat at low
  change c.toNat ≤ 57 at high
  have other (d : Char) (hd : 57 < d.toNat ∨ d.toNat < 48) : c ≠ d := by
    rintro rfl
    omega
  have letter : c.isAlpha = false := by
    by_contra letter
    have range := toNat_of_isAlpha (by simpa using letter)
    omega
  have small : ¬128 ≤ c.toNat := by omega
  simp [isWordStart, letter, small, other '_' (.inl (by decide)), other '#' (.inr (by decide)),
    other '@' (.inl (by decide))]

end Characters

/-! ### Words and parameters -/

/-- A letter and what may follow it in a word. -/
def IsWord : List Char → Prop
  | [] => False
  | c :: cs => isWordStart c ∧ ∀ d ∈ cs, isWordPart d

section Scanning

variable {word rest : List Char} {c : Char}

theorem scan_word (h : IsWord word) (ends : ∀ c ∈ rest.head?, isWordPart c = false) :
    scan (word ++ rest) = some (.word (String.ofList word), rest) := by
  cases word with
  | nil => exact h.elim
  | cons c cs =>
    obtain ⟨start, parts⟩ := h
    have quote : c ≠ '\'' := by rintro rfl; cases start
    have colon : c ≠ ':' := by rintro rfl; cases start
    rw [List.cons_append, scan.eq_def]
    split
    · next heq => cases heq
    · next heq => exact absurd (List.cons.inj heq).1 quote
    · next heq => exact absurd (List.cons.inj heq).1 colon
    · next c' rest' _ _ heq =>
      obtain ⟨rfl, rfl⟩ := List.cons.inj heq
      rw [if_pos start, takeWhile_append_stop parts ends, dropWhile_append_stop parts ends]

theorem scan_parameter (h : IsWord word) (ends : ∀ c ∈ rest.head?, isWordPart c = false) :
    scan (':' :: (word ++ rest)) = some (.parameter (String.ofList word), rest) := by
  cases word with
  | nil => exact h.elim
  | cons c cs =>
    obtain ⟨start, parts⟩ := h
    rw [List.cons_append, scan, if_pos start, takeWhile_append_stop parts ends,
      dropWhile_append_stop parts ends]

/-! ### Strings -/

/-- A quote inside a string is written twice. -/
def escaped (content : List Char) : List Char :=
  content.flatMap fun c => if c = '\'' then ['\'', '\''] else [c]

theorem scanString_escaped (content : List Char) (ends : ∀ c ∈ rest.head?, c ≠ '\'') :
    scanString (escaped content ++ '\'' :: rest) = some (content, rest) := by
  induction content with
  | nil =>
    cases rest with
    | nil => rfl
    | cons c rest =>
      have other : c ≠ '\'' := ends c rfl
      rw [escaped, List.flatMap_nil, List.nil_append, scanString]
      rintro _ heq
      exact other (List.cons.inj heq).1
  | cons c content ih =>
    by_cases quote : c = '\''
    · subst quote
      have written : escaped ('\'' :: content) ++ '\'' :: rest =
          '\'' :: '\'' :: (escaped content ++ '\'' :: rest) := rfl
      rw [written, scanString, ih]
      rfl
    · have written : escaped (c :: content) ++ '\'' :: rest =
          c :: (escaped content ++ '\'' :: rest) := by
        simp [escaped, quote]
      rw [written, scanString, ih]
      · rfl
      · exact fun _ same _ => quote same
      · exact quote

/-! ### Numerals -/

/-- What goes on with no number. -/
def EndsNumber (rest : List Char) : Prop := ∀ c ∈ rest.head?, isWordPart c = false ∧ c ≠ '.'

theorem EndsNumber.not_isDigit (h : EndsNumber rest) : ∀ c ∈ rest.head?, c.isDigit = false := by
  intro c hc
  by_contra digit
  have part := isWordPart_of_isDigit (by simpa using digit)
  rw [(h c hc).1] at part
  cases part

/-- What ends a number has no exponent. -/
theorem EndsNumber.scanExponent (h : EndsNumber rest) : scanExponent rest = ([], rest) := by
  have noMark (e : Char) (he : rest.head? = some e) : (e == 'e' || e == 'E') = false := by
    by_contra mark
    have part := (h e he).1
    rw [Bool.not_eq_false, Bool.or_eq_true, beq_iff_eq, beq_iff_eq] at mark
    rcases mark with rfl | rfl <;> cases part
  unfold Grammar.scanExponent
  split
  · simp [noMark _ rfl]
  · simp [noMark _ rfl]
  · rfl

theorem scanExponent_append {sign ds : List Char}
    (signed : sign = [] ∨ sign = ['+'] ∨ sign = ['-']) (nonempty : ds ≠ [])
    (digits : ∀ c ∈ ds, c.isDigit) (ends : EndsNumber rest) :
    scanExponent ('e' :: (sign ++ ds) ++ rest) = ('e' :: (sign ++ ds), rest) := by
  obtain ⟨d, ds, rfl⟩ := List.exists_cons_of_ne_nil nonempty
  have first : d.isDigit := digits d List.mem_cons_self
  have others : ∀ c ∈ ds, c.isDigit := fun c hc => digits c (List.mem_cons_of_mem _ hc)
  have taken := takeWhile_append_stop others ends.not_isDigit
  have dropped := dropWhile_append_stop others ends.not_isDigit
  have notSign : (d == '+' || d == '-') = false := by
    by_contra sign
    rw [Bool.not_eq_false, Bool.or_eq_true, beq_iff_eq, beq_iff_eq] at sign
    rcases sign with rfl | rfl <;> cases first
  rcases signed with rfl | rfl | rfl
  · rw [List.nil_append, List.cons_append, List.cons_append]
    cases hrest : ds ++ rest with
    | nil =>
      obtain ⟨rfl, rfl⟩ := List.append_eq_nil_iff.1 hrest
      simp [scanExponent, first]
    | cons e more =>
      rw [hrest] at taken dropped
      simp [scanExponent, notSign, first, taken, dropped]
  · simp [scanExponent, first, taken, dropped]
  · simp [scanExponent, first, taken, dropped]

theorem scanNumber_append {numeral : List Char} (h : Numeral numeral) (ends : EndsNumber rest) :
    scanNumber (numeral ++ rest) = (numeral, rest) := by
  obtain ⟨nonempty, digits, point, power⟩ := h
  rename_i whole fraction exponent
  have exponentRead : scanExponent (exponent ++ rest) = (exponent, rest) := by
    rcases power with rfl | ⟨sign, ds, rfl, signed, nonempty, digits⟩
    · exact ends.scanExponent
    · exact scanExponent_append signed nonempty digits ends
  -- after the digits before it neither an exponent nor what follows goes on with a fraction
  have exponentEnds : ∀ c ∈ (exponent ++ rest).head?, c.isDigit = false ∧ c ≠ '.' := by
    rcases power with rfl | ⟨sign, ds, rfl, -⟩
    · exact fun c hc => ⟨ends.not_isDigit c hc, (ends c hc).2⟩
    · rintro _ ⟨⟩
      exact ⟨rfl, by decide⟩
  have fractionRead : scanFraction (fraction ++ (exponent ++ rest)) =
      (fraction, exponent ++ rest) := by
    rcases point with rfl | ⟨ds, rfl, inside⟩
    · rw [List.nil_append, scanFraction.eq_def]
      split
      · next heq => exact absurd rfl (exponentEnds '.' (by rw [heq]; rfl)).2
      · rfl
    · rw [List.cons_append, scanFraction,
        takeWhile_append_stop inside fun c hc => (exponentEnds c hc).1,
        dropWhile_append_stop inside fun c hc => (exponentEnds c hc).1]
  have wholeEnds : ∀ c ∈ (fraction ++ (exponent ++ rest)).head?, c.isDigit = false := by
    rcases point with rfl | ⟨ds, rfl, -⟩
    · exact fun c hc => (exponentEnds c hc).1
    · rintro _ ⟨⟩
      rfl
  rw [List.append_assoc, List.append_assoc, scanNumber, takeWhile_append_stop digits wholeEnds,
    dropWhile_append_stop digits wholeEnds, fractionRead]
  dsimp only
  rw [exponentRead, List.append_assoc]

theorem scan_numeral {numeral : List Char} (h : Numeral numeral) (ends : EndsNumber rest) :
    scan (numeral ++ rest) = some (.number (String.ofList numeral), rest) := by
  have read := scanNumber_append h ends
  obtain ⟨c, cs, rfl, digit⟩ := h.cons
  have quote : c ≠ '\'' := by rintro rfl; cases digit
  have colon : c ≠ ':' := by rintro rfl; cases digit
  rw [List.cons_append] at read ⊢
  rw [scan.eq_def]
  split
  · next heq => cases heq
  · next heq => exact absurd (List.cons.inj heq).1 quote
  · next heq => exact absurd (List.cons.inj heq).1 colon
  · next c' rest' _ _ heq =>
    obtain ⟨rfl, rfl⟩ := List.cons.inj heq
    rw [isWordStart_of_isDigit digit]
    simp only [Bool.false_eq_true, if_false, digit, if_true, read]

end Scanning

/-! ### Reading one lexeme -/

section Lexemes

variable {c : Char} {cs name : List Char} {ls : List Lexeme}

/-- A word that does not begin with a blank, as letters beyond ASCII might. -/
def IsName (cs : List Char) : Prop := IsWord cs ∧ ∀ c ∈ cs.head?, Text.isBlank c = false

theorem Reads.word (h : IsName name) (ends : ∀ c ∈ cs.head?, isWordPart c = false)
    (rest : Reads cs ls) : Reads (name ++ cs) (.word (String.ofList name) :: ls) := by
  have scanned := scan_word h.1 ends
  obtain ⟨word, visible⟩ := h
  cases name with
  | nil => exact word.elim
  | cons c text =>
    have notMinus : c ≠ '-' := by
      rintro rfl
      cases word.1
    exact .lexeme (visible c rfl) (fun minus => absurd minus notMinus) scanned rest

theorem Reads.parameter (h : IsName name) (ends : ∀ c ∈ cs.head?, isWordPart c = false)
    (rest : Reads cs ls) : Reads (':' :: (name ++ cs)) (.parameter (String.ofList name) :: ls) :=
  .lexeme rfl (fun minus => by cases minus) (scan_parameter h.1 ends) rest

theorem Reads.string (content : List Char) (ends : ∀ c ∈ cs.head?, c ≠ '\'') (rest : Reads cs ls) :
    Reads ('\'' :: (escaped content ++ '\'' :: cs)) (.string (String.ofList content) :: ls) := by
  have scanned : scan ('\'' :: ((escaped content ++ ['\'']) ++ cs)) =
      some (.string (String.ofList content), cs) := by
    rw [List.append_assoc, List.singleton_append, scan, scanString_escaped content ends]
    rfl
  have read := Reads.lexeme rfl (fun minus => by cases minus) scanned rest
  rwa [List.append_assoc, List.singleton_append] at read

theorem Reads.number (h : Number.Numeral name) (ends : EndsNumber cs) (rest : Reads cs ls) :
    Reads (name ++ cs) (.number (String.ofList name) :: ls) := by
  have scanned := scan_numeral h ends
  obtain ⟨c, text, rfl, digit⟩ := h.cons
  have range := Char.isDigit_iff_toNat.1 digit
  have notMinus : c ≠ '-' := by
    rintro rfl
    cases digit
  refine .lexeme (isBlank_of_visible ?_ ?_) (fun minus => absurd minus notMinus) scanned rest
  · exact Nat.le_trans (by decide) range.1
  · exact Nat.lt_of_le_of_lt range.2 (by decide)

theorem scan_mark (single : singleMarks.contains c)
    (alone : ∀ d ∈ cs.head?, doubleMarks.contains [c, d] = false) :
    scan (c :: cs) = some (.mark (String.ofList [c]), cs) := by
  have known : c ∈ singleMarks := List.contains_iff_mem.1 single
  have other : singleMarks.all fun c =>
      c != '\'' && c != ':' && !isWordStart c && !c.isDigit := by decide
  have plain := List.all_eq_true.1 other c known
  simp only [Bool.and_eq_true, bne_iff_ne, Bool.not_eq_true'] at plain
  obtain ⟨⟨⟨quote, colon⟩, letter⟩, digit⟩ := plain
  have marked : scanMark (c :: cs) = some (.mark (String.ofList [c]), cs) := by
    cases cs with
    | nil => rw [scanMark, if_pos single]
    | cons d cs => rw [scanMark, alone d rfl, if_neg Bool.false_ne_true, if_pos single]
  rw [scan.eq_def]
  split
  · next heq => cases heq
  · next heq => exact absurd (List.cons.inj heq).1 quote
  · next heq => exact absurd (List.cons.inj heq).1 colon
  · next c' rest' _ _ heq =>
    obtain ⟨rfl, rfl⟩ := List.cons.inj heq
    rw [letter, digit, if_neg Bool.false_ne_true, if_neg Bool.false_ne_true, marked]

variable {s : String}

/-- A mark of one character that does not begin one of two. -/
theorem Reads.mark (spelled : s.toList = [c]) (single : singleMarks.contains c)
    (alone : ∀ d ∈ cs.head?, doubleMarks.contains [c, d] = false)
    (minus : c = '-' → cs.head? ≠ some '-') (rest : Reads cs ls) :
    Reads (s.toList ++ cs) (.mark s :: ls) := by
  obtain rfl : String.ofList [c] = s := by rw [← spelled, String.ofList_toList]
  have visible : singleMarks.all fun c => !Text.isBlank c := by decide
  have blank : Text.isBlank c = false := by
    simpa using List.all_eq_true.1 visible c (List.contains_iff_mem.1 single)
  have scanned : scan (c :: ([] ++ cs)) = some (.mark (String.ofList [c]), cs) :=
    scan_mark single alone
  have noComment : c = '-' → ([] ++ cs).head? ≠ some '-' := minus
  rw [spelled]
  exact .lexeme blank noComment scanned rest

theorem Reads.doubleMark {d : Char} (spelled : s.toList = [c, d])
    (double : doubleMarks.contains [c, d]) (rest : Reads cs ls) :
    Reads (s.toList ++ cs) (.mark s :: ls) := by
  obtain rfl : String.ofList [c, d] = s := by rw [← spelled, String.ofList_toList]
  have known : [c, d] ∈ doubleMarks := List.contains_iff_mem.1 double
  simp only [doubleMarks, List.mem_cons, List.cons.injEq, and_true, List.not_mem_nil,
    or_false] at known
  have scanned : scan (c :: ([d] ++ cs)) = some (.mark (String.ofList [c, d]), cs) := by
    rcases known with
      ⟨rfl, rfl⟩ | ⟨rfl, rfl⟩ | ⟨rfl, rfl⟩ | ⟨rfl, rfl⟩ | ⟨rfl, rfl⟩ | ⟨rfl, rfl⟩ <;> rfl
  have visible : Text.isBlank c = false ∧ c ≠ '-' := by
    rcases known with ⟨rfl, -⟩ | ⟨rfl, -⟩ | ⟨rfl, -⟩ | ⟨rfl, -⟩ | ⟨rfl, -⟩ | ⟨rfl, -⟩ <;> decide
  rw [spelled]
  exact .lexeme visible.1 (fun minus => absurd minus visible.2) scanned rest

end Lexemes

end EntityQuery.Grammar
