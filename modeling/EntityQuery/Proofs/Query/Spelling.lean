import EntityQuery.Metamodel
import EntityQuery.Proofs.Grammar.Lexing
import EntityQuery.Proofs.Libraries.Numerals
import EntityQuery.Query.Token
import Mathlib.Data.List.Chain

/-! How tokens are read back. The text of a token is read as its lexemes wherever what follows does
not go on with it, and so a sequence of tokens is read as the lexemes of each if every token is told
apart from the next. -/
namespace EntityQuery

open Grammar

namespace Token

/-- A sign is a mark of its own. -/
def numberLexemes : List Char → List Lexeme
  | '-' :: magnitude => [.mark "-", .number (String.ofList magnitude)]
  | magnitude => [.number (String.ofList magnitude)]

/-- What a reader makes of a token. Some words are two or three, and a space is nothing. -/
def lexemes [Libraries] (d : Dialect) : Token → List Lexeme
  | word .ORDER_BY => [.word "ORDER", .word "BY"]
  | word .IS_NULL => [.word "IS", .word "NULL"]
  | word .IS_NOT_NULL => [.word "IS", .word "NOT", .word "NULL"]
  | word w => [.word w.text]
  | symbol s => [.mark (s.text d)]
  | comma => [.mark ","]
  | dot => [.mark "."]
  | leftParen => [.mark "("]
  | rightParen => [.mark ")"]
  | space => []
  | sourceName name | entity name | attributeName name => [.word name]
  | parameter name => [.parameter name]
  | int n => numberLexemes (Number.signed n.toInt)
  | float x => numberLexemes (Libraries.queryNumber x)
  | string s => [.string s]
  | bool b => [.word (d.boolText b)]
  | null => [.word "NULL"]
  | function name => [.word (String.ofList (Text.upper name.toList))]

/-- Names are words and numbers are finite. -/
def Readable : Token → Prop
  | sourceName name | entity name | attributeName name | parameter name => IsName name.toList
  | function name => IsName (Text.upper name.toList)
  | float x => Number.isFinite x
  | _ => True

/-- Whether a token is told apart from a character that follows it. -/
def mayPrecede : Token → Char → Bool
  | symbol .eq, c | symbol .gt, c => c != '='
  | symbol .lt, c => c != '=' && c != '>'
  | symbol .minus, c => c != '-'
  | symbol _, _ | comma, _ | dot, _ | leftParen, _ | rightParen, _ | space, _ => true
  | int _, c | float _, c => !isWordPart c && c != '.'
  | string _, c => c != '\''
  | _, c => !isWordPart c

end Token

namespace Grammar

variable {cs : List Char} {ls : List Lexeme}

theorem isName_of_isIdentifier {s : String} (h : isIdentifier s) : IsName s.toList := by
  unfold isIdentifier at h
  split at h
  · cases h
  · next c cs hs =>
    simp only [Bool.and_eq_true, Bool.or_eq_true, beq_iff_eq, List.all_eq_true,
      Char.isAlphanum] at h
    obtain ⟨first, others⟩ := h
    rw [hs]
    refine ⟨⟨?_, fun d hd => ?_⟩, ?_⟩
    · rcases first with letter | rfl
      · simp [isWordStart, letter]
      · rfl
    · rcases others d hd with (letter | digit) | rfl
      · simp [isWordPart, isWordStart, letter]
      · exact isWordPart_of_isDigit digit
      · rfl
    · rintro _ ⟨⟩
      rcases first with letter | rfl
      · have range := toNat_of_isAlpha letter
        exact isBlank_of_visible (by omega) (by omega)
      · rfl

theorem Reads.name {s : String} (h : IsName s.toList)
    (ends : ∀ c ∈ cs.head?, isWordPart c = false) (rest : Reads cs ls) :
    Reads (s.toList ++ cs) (.word s :: ls) := by
  have read := Reads.word h ends rest
  rwa [String.ofList_toList] at read

theorem Reads.keyword {s : String} (h : isIdentifier s)
    (ends : ∀ c ∈ cs.head?, isWordPart c = false) (rest : Reads cs ls) :
    Reads (s.toList ++ cs) (.word s :: ls) :=
  .name (isName_of_isIdentifier h) ends rest

end Grammar

namespace Token

variable {d : Dialect} {cs : List Char} {ls : List Lexeme}

/-! ### Reading one token -/

theorem reads_word [Libraries] (w : Word) (ends : ∀ c ∈ cs.head?, isWordPart c = false)
    (rest : Reads cs ls) : Reads (w.text.toList ++ cs) ((word w).lexemes d ++ ls) := by
  have space {cs : List Char} : ∀ c ∈ (' ' :: cs).head?, isWordPart c = false := by
    rintro _ ⟨⟩
    rfl
  cases w with
  | ORDER_BY =>
    have last := Reads.keyword (s := "BY") rfl ends rest
    exact .keyword (s := "ORDER") rfl space (.blank rfl last)
  | IS_NULL =>
    have last := Reads.keyword (s := "NULL") rfl ends rest
    exact .keyword (s := "IS") rfl space (.blank rfl last)
  | IS_NOT_NULL =>
    have last := Reads.keyword (s := "NULL") rfl ends rest
    have middle := Reads.keyword (s := "NOT") rfl space (.blank rfl last)
    exact .keyword (s := "IS") rfl space (.blank rfl middle)
  | _ => exact .keyword rfl ends rest

/-- A mark of one character, if what follows makes it none of two. -/
theorem reads_mark {t : Token} (s : String) (c : Char) (spelled : s.toList = [c])
    (single : singleMarks.contains c)
    (alone : ∀ d, t.mayPrecede d → doubleMarks.contains [c, d] = false ∧ (c = '-' → d ≠ '-'))
    (ends : ∀ d ∈ cs.head?, t.mayPrecede d) (rest : Reads cs ls) :
    Reads (s.toList ++ cs) (.mark s :: ls) := by
  refine .mark spelled single (fun d hd => (alone d (ends d hd)).1) (fun minus same => ?_) rest
  exact (alone '-' (ends '-' same)).2 minus rfl

theorem reads_symbol [Libraries] (s : Symbol) (ends : ∀ c ∈ cs.head?, (symbol s).mayPrecede c)
    (rest : Reads cs ls) : Reads ((s.text d).toList ++ cs) ((symbol s).lexemes d ++ ls) := by
  cases s with
  | ne => exact .doubleMark (s := "<>") rfl rfl rest
  | le => exact .doubleMark (s := "<=") rfl rfl rest
  | ge => exact .doubleMark (s := ">=") rfl rfl rest
  | concat => exact .doubleMark (s := "||") rfl rfl rest
  | eq => exact reads_mark "=" '=' rfl rfl (by simp [mayPrecede, doubleMarks]) ends rest
  | lt => exact reads_mark "<" '<' rfl rfl (by simp [mayPrecede, doubleMarks]) ends rest
  | gt => exact reads_mark ">" '>' rfl rfl (by simp [mayPrecede, doubleMarks]) ends rest
  | plus => exact reads_mark "+" '+' rfl rfl (by simp [doubleMarks]) ends rest
  | minus => exact reads_mark "-" '-' rfl rfl (by simp [mayPrecede, doubleMarks]) ends rest
  | times => exact reads_mark "*" '*' rfl rfl (by simp [doubleMarks]) ends rest
  | divide => exact reads_mark "/" '/' rfl rfl (by simp [doubleMarks]) ends rest

theorem reads_number {numeral : List Char} (h : Number.Numeral numeral) (negative : Bool)
    (ends : EndsNumber cs) (rest : Reads cs ls) :
    let text := if negative then '-' :: numeral else numeral
    Reads (text ++ cs) (numberLexemes text ++ ls) := by
  have magnitude := Reads.number h ends rest
  obtain ⟨c, text, rfl, digit⟩ := h.cons
  have notMinus : c ≠ '-' := by
    rintro rfl
    cases digit
  cases negative with
  | true =>
    have ends : ∀ d ∈ (c :: text ++ cs).head?, (symbol .minus).mayPrecede d := by
      rintro _ ⟨⟩
      simpa [mayPrecede] using notMinus
    exact reads_mark "-" '-' rfl rfl (by simp [mayPrecede, doubleMarks]) ends magnitude
  | false =>
    have single : numberLexemes (c :: text) = [.number (String.ofList (c :: text))] := by
      unfold numberLexemes
      split
      · next heq => exact absurd (List.cons.inj heq).1 notMinus
      · rfl
    change Reads (c :: text ++ cs) (numberLexemes (c :: text) ++ ls)
    rw [single]
    exact magnitude

variable [Libraries] [Libraries.QueryNumerals]

/-- The text of a token is read as its lexemes if what follows does not go on with it. -/
theorem reads {t : Token} (h : t.Readable) (ends : ∀ c ∈ cs.head?, t.mayPrecede c)
    (rest : Reads cs ls) : Reads ((t.text d).toList ++ cs) (t.lexemes d ++ ls) := by
  have wordEnds (plain : ∀ c, t.mayPrecede c = !isWordPart c) :
      ∀ c ∈ cs.head?, isWordPart c = false := by
    intro c hc
    have apart := ends c hc
    rw [plain, Bool.not_eq_true'] at apart
    exact apart
  have numberEnds (plain : ∀ c, t.mayPrecede c = (!isWordPart c && c != '.')) : EndsNumber cs := by
    intro c hc
    have apart := ends c hc
    rw [plain, Bool.and_eq_true, Bool.not_eq_true', bne_iff_ne] at apart
    exact apart
  cases t with
  | word w => exact reads_word w (wordEnds fun _ => rfl) rest
  | symbol s => exact reads_symbol s ends rest
  | comma => exact reads_mark "," ',' rfl rfl (by simp [doubleMarks]) ends rest
  | dot => exact reads_mark "." '.' rfl rfl (by simp [doubleMarks]) ends rest
  | leftParen => exact reads_mark "(" '(' rfl rfl (by simp [doubleMarks]) ends rest
  | rightParen => exact reads_mark ")" ')' rfl rfl (by simp [doubleMarks]) ends rest
  | space =>
    change Reads (" ".toList ++ cs) ls
    exact .blank rfl rest
  | sourceName name | entity name | attributeName name =>
    exact .name h (wordEnds fun _ => rfl) rest
  | parameter name =>
    have read := Reads.parameter h (wordEnds fun _ => rfl) rest
    rw [String.ofList_toList] at read
    simpa [text, lexemes, Dialect.parameterText] using read
  | int n =>
    have read := reads_number (Number.numeral_digits n.toInt.natAbs) (n.toInt < 0)
      (numberEnds fun _ => rfl) rest
    simpa [text, lexemes, Value.showInt, Number.signed] using read
  | float x =>
    obtain ⟨numeral, isNumeral, written⟩ := Libraries.QueryNumerals.signed x h
    have read := reads_number isNumeral (Number.isNegative x) (numberEnds fun _ => rfl) rest
    rw [← written] at read
    simpa [text, lexemes] using read
  | string s =>
    have ends : ∀ c ∈ cs.head?, c ≠ '\'' := by
      intro c hc
      simpa [mayPrecede] using ends c hc
    have read := Reads.string s.toList ends rest
    rw [String.ofList_toList] at read
    simpa [text, lexemes, Dialect.quote, escaped] using read
  | bool b =>
    have word : isIdentifier (d.boolText b) := by cases d <;> cases b <;> rfl
    exact .keyword word (wordEnds fun _ => rfl) rest
  | null => exact .keyword (s := "NULL") rfl (wordEnds fun _ => rfl) rest
  | function name =>
    have read := Reads.word h (wordEnds fun _ => rfl) rest
    simpa [text, lexemes] using read

theorem text_ne_nil {t : Token} (h : t.Readable) : (t.text d).toList ≠ [] := by
  have name {cs : List Char} (h : IsName cs) : cs ≠ [] := by
    rintro rfl
    exact h.1
  cases t with
  | sourceName s | entity s | attributeName s => exact name h
  | function s =>
    rw [text, String.toList_ofList]
    exact name h
  | word w => cases w <;> simp [text, Word.text]
  | symbol s => cases s <;> simp [text, Symbol.text, Dialect.concatText]
  | parameter s => simp [text, Dialect.parameterText]
  | int n =>
    rw [text, Value.showInt, String.toList_ofList, Number.signed]
    split
    · exact List.cons_ne_nil _ _
    · exact Number.digits_ne_nil _
  | float x =>
    obtain ⟨numeral, isNumeral, written⟩ := Libraries.QueryNumerals.signed x h
    obtain ⟨c, cs, rfl, -⟩ := isNumeral.cons
    rw [text, String.toList_ofList, written]
    split <;> exact List.cons_ne_nil _ _
  | string s => simp [text, Dialect.quote]
  | bool b => cases d <;> cases b <;> simp [text, Dialect.boolText]
  | comma | dot | leftParen | rightParen | space | null => simp [text]

/-- Whether a token is told apart from the one after it. -/
def Apart (d : Dialect) (t u : Token) : Prop := ∀ c ∈ (u.text d).toList.head?, t.mayPrecede c

end Token

/-- A sequence of tokens is read as the lexemes of each. -/
theorem reads_tokensText [Libraries] [Libraries.QueryNumerals] {d : Dialect} {ts : List Token}
    (readable : ∀ t ∈ ts, t.Readable) (apart : ts.IsChain (Token.Apart d)) :
    Reads (tokensText d ts).toList (ts.flatMap (Token.lexemes d)) := by
  rw [tokensText, String.toList_ofList]
  induction ts with
  | nil => exact .nil
  | cons t ts ih =>
    obtain ⟨first, others⟩ := List.forall_mem_cons.1 readable
    have ends : ∀ c ∈ (ts.flatMap fun t => (t.text d).toList).head?, t.mayPrecede c := by
      cases ts with
      | nil => exact fun c hc => by cases hc
      | cons u us =>
        rw [List.flatMap_cons,
          List.head?_append_of_ne_nil _ (Token.text_ne_nil (others u List.mem_cons_self))]
        exact (List.isChain_cons_cons.1 apart).1
    exact Token.reads first ends (ih others apart.tail)

end EntityQuery
