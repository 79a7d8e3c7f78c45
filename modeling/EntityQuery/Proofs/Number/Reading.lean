import EntityQuery.Proofs.Number.Numeral
import EntityQuery.Proofs.Number.Rounding
import Mathlib

/-! Floats read back. A written numeral stands for the number its digits were taken for, whether it
is positional or has an exponent, so no two floats are written alike. -/
namespace EntityQuery.Number

/-- The number that digits stand for. -/
def digitsValue (ds : List Char) : Nat := Nat.ofDigitChars 10 ds 0

/-- The power of ten that an exponent stands for; where there is none it is the power 0. -/
def exponentValue : List Char → ℤ
  | 'e' :: '-' :: ds => -digitsValue ds
  | 'e' :: '+' :: ds => digitsValue ds
  | 'e' :: ds => digitsValue ds
  | _ => 0

theorem exponentValue_nil : exponentValue [] = 0 := rfl

/-- The number that a numeral stands for, from the digits before its point and what is behind
them. -/
def tailValue (whole : List Char) : List Char → ℚ
  | '.' :: rest =>
    let fraction := rest.takeWhile Char.isDigit
    digitsValue (whole ++ fraction)
      * 10 ^ (exponentValue (rest.dropWhile Char.isDigit) - fraction.length)
  | rest => digitsValue whole * 10 ^ exponentValue rest

/-- The number that a numeral without a sign stands for. -/
def numeralValue (cs : List Char) : ℚ :=
  tailValue (cs.takeWhile Char.isDigit) (cs.dropWhile Char.isDigit)

theorem digitsValue_digits (n : Nat) : digitsValue (digits n) = n :=
  Nat.ofDigitChars_toDigits (by decide) (by decide)

theorem digits_injective : Function.Injective digits := fun m n same => by
  rw [← digitsValue_digits m, same, digitsValue_digits]

/-- A whole number is written with a minus sign and digits. -/
theorem minus_or_isDigit_of_mem_signed {n : Int} {c : Char} (h : c ∈ signed n) :
    c = '-' ∨ c.isDigit := by
  unfold signed at h
  split at h
  · exact (List.mem_cons.1 h).imp_right isDigit_of_mem_digits
  · exact .inr (isDigit_of_mem_digits h)

theorem signed_injective : Function.Injective signed := by
  intro m n same
  have unsigned (k l : Nat) : digits k ≠ '-' :: digits l := by
    intro h
    cases isDigit_of_mem_digits (h ▸ List.mem_cons_self : '-' ∈ digits k)
  unfold signed at same
  split at same <;> split at same
  · have := digits_injective (List.cons.inj same).2
    omega
  · exact absurd same.symm (unsigned _ _)
  · exact absurd same (unsigned _ _)
  · have := digits_injective same
    omega

theorem digitsValue_append_zeros (ds : List Char) (n : Nat) :
    digitsValue (ds ++ Layout.zeros n) = digitsValue ds * 10 ^ n := by
  rw [digitsValue, Nat.ofDigitChars_append, Layout.zeros, Nat.ofDigitChars_replicate_zero, mul_comm]
  rfl

theorem digitsValue_zeros_append (n : Nat) (ds : List Char) :
    digitsValue (Layout.zeros n ++ ds) = digitsValue ds := by
  rw [digitsValue, Nat.ofDigitChars_append, Layout.zeros, Nat.ofDigitChars_replicate_zero, mul_zero]
  rfl

section Parts

variable {whole fraction rest : List Char}

/-- An exponent stands behind the digits, or nothing does. -/
def Closes (rest : List Char) : Prop := ∀ c ∈ rest.head?, c = 'e'

theorem closes_nil : Closes [] := fun _ hc => by cases hc

theorem closes_exponent (cs : List Char) : Closes ('e' :: cs) :=
  fun _ hc => (Option.some.inj hc).symm

theorem Closes.not_isDigit (h : Closes rest) : ∀ c ∈ rest.head?, c.isDigit = false := by
  intro c hc
  rw [h c hc]
  rfl

theorem numeralValue_whole (closes : Closes rest) (digits : ∀ c ∈ whole, c.isDigit) :
    numeralValue (whole ++ rest) = digitsValue whole * 10 ^ exponentValue rest := by
  rw [numeralValue, takeWhile_append_stop digits closes.not_isDigit,
    dropWhile_append_stop digits closes.not_isDigit]
  rcases rest with _ | ⟨c, rest⟩
  · rfl
  · obtain rfl := closes c rfl
    rfl

theorem numeralValue_point (closes : Closes rest) (digits : ∀ c ∈ whole, c.isDigit)
    (digits' : ∀ c ∈ fraction, c.isDigit) :
    numeralValue (whole ++ '.' :: (fraction ++ rest)) =
      digitsValue (whole ++ fraction) * 10 ^ (exponentValue rest - fraction.length) := by
  have point : ∀ c ∈ ('.' :: (fraction ++ rest)).head?, c.isDigit = false := by simp
  rw [numeralValue, takeWhile_append_stop digits point, dropWhile_append_stop digits point,
    tailValue, takeWhile_append_stop digits' closes.not_isDigit,
    dropWhile_append_stop digits' closes.not_isDigit]

theorem numeralValue_digits (digits : ∀ c ∈ whole, c.isDigit) :
    numeralValue whole = digitsValue whole := by
  have value := numeralValue_whole closes_nil digits
  rwa [List.append_nil, exponentValue_nil, zpow_zero, mul_one] at value

theorem numeralValue_fraction (digits : ∀ c ∈ whole, c.isDigit)
    (digits' : ∀ c ∈ fraction, c.isDigit) :
    numeralValue (whole ++ '.' :: fraction) =
      digitsValue (whole ++ fraction) * 10 ^ (-fraction.length : ℤ) := by
  have value := numeralValue_point closes_nil digits digits'
  rwa [List.append_nil, exponentValue_nil, zero_sub] at value

end Parts

/-- Whether a minus sign is written. -/
def Binary64.negative : Binary64 → Bool
  | nan => false
  | infinite negative | finite negative _ _ => negative

namespace Layout

variable (layout : Layout) {ds : List Char}

theorem exponentValue_signed (lead : Int) :
    exponentValue ('e' :: ((if layout.plusSign && 0 ≤ lead then ['+'] else []) ++ signed lead)) =
      lead := by
  by_cases negative : lead < 0
  · have none : ¬(layout.plusSign && decide (0 ≤ lead)) = true := by
      rw [Bool.and_eq_true, decide_eq_true_eq]
      omega
    rw [if_neg none, signed, if_pos negative, List.nil_append, exponentValue, digitsValue_digits]
    omega
  · have whole : (lead.natAbs : Int) = lead := by omega
    rw [signed, if_neg negative]
    split
    · rw [List.singleton_append, exponentValue, digitsValue_digits, whole]
    · obtain ⟨c, cs, figures, digit⟩ := digits_cons lead.natAbs
      have value := digitsValue_digits lead.natAbs
      rw [figures] at value ⊢
      rw [List.nil_append, exponentValue, value, whole]
      · intro _ same
        cases same
        cases digit
      · intro _ same
        cases same
        cases digit

/-- Digits with zeros up to the point. -/
theorem numeralValue_shifted (digits : ∀ c ∈ ds, c.isDigit) (n : Nat) :
    numeralValue (ds ++ zeros n ++ if layout.wholePoint then ['.', '0'] else []) =
      digitsValue ds * 10 ^ n := by
  have shifted : ∀ c ∈ ds ++ zeros n, c.isDigit := by
    intro c hc
    exact (List.mem_append.1 hc).elim (digits c) isDigit_of_mem_zeros
  split
  · have more : ds ++ zeros n ++ ['0'] = ds ++ zeros n ++ zeros 1 := rfl
    rw [numeralValue_fraction shifted (by simp), more, digitsValue_append_zeros,
      digitsValue_append_zeros]
    simp [mul_assoc]
  · rw [List.append_nil, numeralValue_digits shifted, digitsValue_append_zeros]
    simp

/-- Digits with zeros behind the point. -/
theorem numeralValue_padded (digits : ∀ c ∈ ds, c.isDigit) (n : Nat) :
    numeralValue ('0' :: '.' :: zeros n ++ ds) =
      digitsValue ds * 10 ^ (-(n + ds.length : Nat) : ℤ) := by
  have zero : ∀ c ∈ ['0'], c.isDigit := by simp
  have padded : ∀ c ∈ zeros n ++ ds, c.isDigit := by
    intro c hc
    exact (List.mem_append.1 hc).elim isDigit_of_mem_zeros (digits c)
  have value := numeralValue_fraction zero padded
  have more : ['0'] ++ (zeros n ++ ds) = zeros 1 ++ (zeros n ++ ds) := rfl
  rw [more, digitsValue_zeros_append, digitsValue_zeros_append, List.length_append, zeros,
    List.length_replicate] at value
  exact value

theorem numeralValue_position (digits : ∀ c ∈ ds, c.isDigit) (exponent : Int) :
    numeralValue (layout.position ds exponent) = digitsValue ds * 10 ^ exponent := by
  unfold position
  split
  · next whole =>
    obtain ⟨n, rfl⟩ := Int.eq_ofNat_of_zero_le whole
    rw [Int.toNat_natCast, zpow_natCast]
    exact layout.numeralValue_shifted digits n
  · next fractional =>
    obtain ⟨n, rfl⟩ : ∃ n : Nat, exponent = -n := ⟨(-exponent).toNat, by omega⟩
    rw [neg_neg, Int.toNat_natCast]
    dsimp only
    split
    · next inside =>
      rw [numeralValue_fraction (fun c hc => digits c (List.mem_of_mem_take hc))
        (fun c hc => digits c (List.mem_of_mem_drop hc)), List.take_append_drop, List.length_drop]
      congr 3
      omega
    · next outside =>
      rw [numeralValue_padded digits, Nat.sub_add_cancel (not_lt.1 outside)]

theorem numeralValue_scientific (nonempty : ds ≠ []) (digits : ∀ c ∈ ds, c.isDigit)
    (exponent : Int) :
    numeralValue (layout.scientific ds (exponent + ds.length - 1)) =
      digitsValue ds * 10 ^ exponent := by
  have power := layout.exponentValue_signed (exponent + ds.length - 1)
  unfold scientific
  dsimp only
  rw [List.append_assoc, List.cons_append]
  split
  · next d e rest =>
    have first : ∀ c ∈ [d], c.isDigit := by simp [digits d]
    have others : ∀ c ∈ e :: rest, c.isDigit := fun c hc => digits c (List.mem_cons_of_mem _ hc)
    refine (numeralValue_point (closes_exponent _) first others).trans ?_
    rw [power]
    congr 2
    simp only [List.length_cons]
    omega
  · next short =>
    have single : ds.length = 1 := by
      rcases ds with _ | ⟨d, _ | ⟨e, rest⟩⟩
      · cases nonempty rfl
      · rfl
      · cases short d e rest rfl
    rw [numeralValue_whole (closes_exponent _) digits, power, single]
    congr 2
    omega

/-- Digits are read as the number they were taken for. -/
theorem numeralValue_decimal (d : Decimal) : numeralValue (layout.decimal d) = d.value := by
  have figures := digits_ne_nil d.coefficient
  have all : ∀ c ∈ digits d.coefficient, c.isDigit := fun _ => isDigit_of_mem_digits
  unfold decimal Decimal.value
  dsimp only
  split
  · rw [layout.numeralValue_position all, digitsValue_digits]
  · rw [layout.numeralValue_scientific figures all, digitsValue_digits]

/-- The digits for a finite float without its sign. -/
def magnitude (mantissa : Nat) (exponent : Int) : Decimal :=
  if mantissa = 0 then ⟨0, 0⟩ else shortest layout.tie mantissa exponent

/-- What is written behind the sign. -/
def body : Binary64 → List Char
  | .nan => ['N', 'a', 'N']
  | .infinite _ => ['i', 'n', 'f']
  | .finite _ mantissa exponent => layout.decimal (layout.magnitude mantissa exponent)

theorem write_eq (x : Float) : layout.write x =
    (if (Binary64.ofFloat x).negative then ['-'] else []) ++ layout.body (Binary64.ofFloat x) := by
  unfold write
  cases Binary64.ofFloat x with
  | nan => rfl
  | infinite negative => rfl
  | finite negative mantissa exponent => rw [body, magnitude, apply_ite layout.decimal]; rfl

/-- A numeral begins with a digit, and what is no number with another letter. -/
theorem body_cons (parts : Binary64) : ∃ c cs, layout.body parts = c :: cs ∧ c ≠ '-' := by
  cases parts with
  | nan => exact ⟨_, _, rfl, by decide⟩
  | infinite negative => exact ⟨_, _, rfl, by decide⟩
  | finite negative mantissa exponent =>
    obtain ⟨c, cs, written, digit⟩ := (layout.numeral_decimal
      (layout.magnitude mantissa exponent)).cons
    refine ⟨c, cs, written, ?_⟩
    rintro rfl
    cases digit

theorem eq_of_value_magnitude {m n : Nat} {e f : Int} (h : Binary64.Canonical m e)
    (h' : Binary64.Canonical n f)
    (same : (layout.magnitude m e).value = (layout.magnitude n f).value) : m = n ∧ e = f := by
  have zero {n : Nat} {f : Int} (h : Binary64.Canonical n f)
      (same : (0 : ℚ) = (layout.magnitude n f).value) : n = 0 := by
    by_contra some
    rw [magnitude, if_neg some] at same
    exact (value_shortest_pos layout.tie h (Nat.pos_of_ne_zero some)).ne same
  have none : Decimal.value ⟨0, 0⟩ = 0 := by simp [Decimal.value]
  have least {f : Int} (h : Binary64.Canonical 0 f) : f = -1074 := by
    have := h.least
    have := h.full
    simp only [Binary64.hiddenBit] at this
    omega
  by_cases first : m = 0
  · subst first
    rw [magnitude, if_pos rfl, none] at same
    obtain rfl := zero h' same
    exact ⟨rfl, (least h).trans (least h').symm⟩
  by_cases second : n = 0
  · subst second
    rw [magnitude.eq_1 layout 0, if_pos rfl, none] at same
    exact absurd (zero h same.symm) first
  rw [magnitude, magnitude, if_neg first, if_neg second] at same
  exact eq_of_value_shortest layout.tie h h' (Nat.pos_of_ne_zero first)
    (Nat.pos_of_ne_zero second) same

/-- A sign is told from what is written behind it. -/
theorem sign_append_inj {s t : Bool} {c d : Char} {cs ds : List Char} (plain : c ≠ '-')
    (plain' : d ≠ '-') (same : (if s then ['-'] else []) ++ c :: cs =
      (if t then ['-'] else []) ++ d :: ds) : s = t ∧ c :: cs = d :: ds := by
  cases s <;> cases t
  · exact ⟨rfl, same⟩
  · exact absurd (List.cons.inj same).1 plain
  · exact absurd (List.cons.inj same).1.symm plain'
  · exact ⟨rfl, (List.cons.inj same).2⟩

/-- A numeral begins with a digit. -/
theorem decimal_ne (d : Decimal) {c : Char} {cs : List Char} (letter : c.isDigit = false) :
    layout.decimal d ≠ c :: cs := by
  intro same
  obtain ⟨d, ds, written, digit⟩ := (layout.numeral_decimal d).cons
  obtain ⟨rfl, -⟩ := List.cons.inj (written.symm.trans same)
  cases letter.symm.trans digit

/-- The sign and what is behind it tell all parts of a float. -/
theorem eq_of_body {p q : Binary64}
    (h : ∀ s m e, p = .finite s m e → Binary64.Canonical m e)
    (h' : ∀ s m e, q = .finite s m e → Binary64.Canonical m e)
    (sign : p.negative = q.negative) (behind : layout.body p = layout.body q) : p = q := by
  cases p with
  | nan =>
    cases q with
    | nan => rfl
    | infinite _ => cases behind
    | finite _ _ _ => exact absurd behind.symm (layout.decimal_ne _ rfl)
  | infinite s =>
    cases q with
    | nan => cases behind
    | infinite t => exact congrArg _ sign
    | finite _ _ _ => exact absurd behind.symm (layout.decimal_ne _ rfl)
  | finite s m e =>
    cases q with
    | nan => exact absurd behind (layout.decimal_ne _ rfl)
    | infinite _ => exact absurd behind (layout.decimal_ne _ rfl)
    | finite t n f =>
      have value := congrArg numeralValue behind
      rw [body, body, numeralValue_decimal, numeralValue_decimal] at value
      obtain ⟨rfl, rfl⟩ := layout.eq_of_value_magnitude (h s m e rfl) (h' t n f rfl) value
      obtain rfl : s = t := sign
      rfl

/-- No two floats are written alike. -/
theorem write_injective : Function.Injective layout.write := by
  intro x y same
  obtain ⟨c, cs, first, plain⟩ := layout.body_cons (Binary64.ofFloat x)
  obtain ⟨d, ds, second, plain'⟩ := layout.body_cons (Binary64.ofFloat y)
  rw [write_eq, write_eq, first, second] at same
  obtain ⟨sign, behind⟩ := sign_append_inj plain plain' same
  rw [← first, ← second] at behind
  exact Binary64.ofFloat_injective (layout.eq_of_body
    (fun _ _ _ => Binary64.canonical_of_ofFloat) (fun _ _ _ => Binary64.canonical_of_ofFloat)
    sign behind)

/-- Where whole numbers have a point, all that is written has a point or an exponent. -/
theorem point_or_exponent_mem_decimal (wholePoint : layout.wholePoint) (d : Decimal) :
    '.' ∈ layout.decimal d ∨ 'e' ∈ layout.decimal d := by
  unfold decimal
  dsimp only
  split
  · refine .inl ?_
    unfold position
    split
    · simp
    · dsimp only
      split <;> simp
  · refine .inr ?_
    simp [scientific]

end Layout
end EntityQuery.Number
