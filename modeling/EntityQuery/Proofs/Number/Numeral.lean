import EntityQuery.Number.Layout

/-! How numbers are written. Whatever its layout a finite float is written as a numeral, behind a
minus sign if its own sign is one. -/
namespace EntityQuery.Number

section Munch

variable {p : Char → Bool} {body rest : List Char}

theorem takeWhile_append_stop (inside : ∀ c ∈ body, p c) (stops : ∀ c ∈ rest.head?, p c = false) :
    (body ++ rest).takeWhile p = body := by
  rw [List.takeWhile_append_of_pos inside]
  cases rest with
  | nil => simp
  | cons c rest => simp [stops c rfl]

theorem dropWhile_append_stop (inside : ∀ c ∈ body, p c) (stops : ∀ c ∈ rest.head?, p c = false) :
    (body ++ rest).dropWhile p = rest := by
  rw [List.dropWhile_append_of_pos inside]
  cases rest with
  | nil => rfl
  | cons c rest => simp [stops c rfl]

/-- What is taken goes on as far as it can. -/
theorem munch_iff {cs : List Char} : cs.takeWhile p = body ∧ cs.dropWhile p = rest ↔
    cs = body ++ rest ∧ (∀ c ∈ body, p c) ∧ ∀ c ∈ rest.head?, p c = false := by
  constructor
  · rintro ⟨rfl, rfl⟩
    refine ⟨List.takeWhile_append_dropWhile.symm, List.all_eq_true.1 List.all_takeWhile,
      fun c h => ?_⟩
    have stops := List.head?_dropWhile_not p cs
    rwa [Option.mem_def.1 h] at stops
  · rintro ⟨rfl, inside, stops⟩
    exact ⟨takeWhile_append_stop inside stops, dropWhile_append_stop inside stops⟩

end Munch

theorem isDigit_of_mem_digits {n : Nat} {c : Char} (h : c ∈ digits n) : c.isDigit :=
  Nat.isDigit_of_mem_toDigits (by decide) (by decide) h

theorem digits_ne_nil (n : Nat) : digits n ≠ [] := Nat.toDigits_ne_nil

theorem digits_cons (n : Nat) : ∃ c cs, digits n = c :: cs ∧ c.isDigit := by
  obtain ⟨c, cs, hcs⟩ := List.exists_cons_of_ne_nil (digits_ne_nil n)
  exact ⟨c, cs, hcs, isDigit_of_mem_digits (hcs ▸ List.mem_cons_self)⟩

/-- A power of ten, with or without a sign. -/
def IsExponent (cs : List Char) : Prop :=
  ∃ sign ds, cs = 'e' :: (sign ++ ds) ∧ (sign = [] ∨ sign = ['+'] ∨ sign = ['-']) ∧ ds ≠ [] ∧
    ∀ c ∈ ds, c.isDigit

/-- Digits, then a point and digits if there is one, then an exponent if there is one. -/
inductive Numeral : List Char → Prop
  | intro {whole fraction exponent : List Char} (nonempty : whole ≠ [])
    (digits : ∀ c ∈ whole, c.isDigit)
    (point : fraction = [] ∨ ∃ ds, fraction = '.' :: ds ∧ ∀ c ∈ ds, c.isDigit)
    (power : exponent = [] ∨ IsExponent exponent) : Numeral (whole ++ (fraction ++ exponent))

theorem Numeral.cons {numeral : List Char} (h : Numeral numeral) :
    ∃ c cs, numeral = c :: cs ∧ c.isDigit := by
  obtain ⟨nonempty, digits, -, -⟩ := h
  rename_i whole fraction exponent
  obtain ⟨c, cs, rfl⟩ := List.exists_cons_of_ne_nil nonempty
  exact ⟨c, cs ++ (fraction ++ exponent), rfl, digits c List.mem_cons_self⟩

variable {ds : List Char}

theorem numeral_of_digits (nonempty : ds ≠ []) (digits : ∀ c ∈ ds, c.isDigit) : Numeral ds := by
  have h := Numeral.intro nonempty digits (.inl rfl) (.inl rfl)
  rwa [List.append_nil, List.append_nil] at h

theorem numeral_digits (n : Nat) : Numeral (digits n) :=
  numeral_of_digits (digits_ne_nil n) fun _ => isDigit_of_mem_digits

/-- A finite float is written as a numeral, behind a minus sign if its own sign is one. -/
def WritesSigned (write : Float → List Char) : Prop :=
  ∀ x, isFinite x → ∃ numeral, Numeral numeral ∧
    write x = if isNegative x then '-' :: numeral else numeral

namespace Layout

theorem isDigit_of_mem_zeros {n : Nat} {c : Char} (h : c ∈ zeros n) : c.isDigit := by
  rw [List.eq_of_mem_replicate h]
  rfl

variable (layout : Layout)

/-- Digits around a point. -/
theorem numeral_point {whole part : List Char} (nonempty : whole ≠ [])
    (digits : ∀ c ∈ whole, c.isDigit) (digits' : ∀ c ∈ part, c.isDigit) :
    Numeral (whole ++ '.' :: part) := by
  have h := Numeral.intro nonempty digits (.inr ⟨part, rfl, digits'⟩) (.inl rfl)
  rwa [List.append_nil] at h

theorem numeral_position (nonempty : ds ≠ []) (digits : ∀ c ∈ ds, c.isDigit) (exponent : Int) :
    Numeral (layout.position ds exponent) := by
  unfold position
  split
  · have shifted : ∀ c ∈ ds ++ zeros exponent.toNat, c.isDigit := by
      intro c hc
      exact (List.mem_append.1 hc).elim (digits c) isDigit_of_mem_zeros
    have some : ds ++ zeros exponent.toNat ≠ [] := by simp [nonempty]
    split
    · exact numeral_point some shifted (by simp)
    · rw [List.append_nil]
      exact numeral_of_digits some shifted
  · dsimp only
    split
    · next inside =>
      refine numeral_point ?_ ?_ ?_
      · rw [Ne, List.take_eq_nil_iff, not_or]
        exact ⟨by omega, nonempty⟩
      · exact fun c hc => digits c (List.mem_of_mem_take hc)
      · exact fun c hc => digits c (List.mem_of_mem_drop hc)
    · have zero : ∀ c ∈ ['0'], c.isDigit := by simp
      refine numeral_point (List.cons_ne_nil _ _) zero fun c hc => ?_
      exact (List.mem_append.1 hc).elim isDigit_of_mem_zeros (digits c)

theorem isExponent_signed (lead : Int) :
    IsExponent ('e' :: ((if layout.plusSign && 0 ≤ lead then ['+'] else []) ++ signed lead)) := by
  have figures := digits_ne_nil lead.natAbs
  have all : ∀ c ∈ digits lead.natAbs, c.isDigit := fun _ => isDigit_of_mem_digits
  by_cases negative : lead < 0
  · have none : ¬(layout.plusSign && decide (0 ≤ lead)) = true := by
      rw [Bool.and_eq_true, decide_eq_true_eq]
      omega
    rw [if_neg none, signed, if_pos negative]
    exact ⟨['-'], _, rfl, .inr (.inr rfl), figures, all⟩
  · rw [signed, if_neg negative]
    split
    · exact ⟨['+'], _, rfl, .inr (.inl rfl), figures, all⟩
    · exact ⟨[], _, rfl, .inl rfl, figures, all⟩

theorem numeral_scientific (nonempty : ds ≠ []) (digits : ∀ c ∈ ds, c.isDigit) (lead : Int) :
    Numeral (layout.scientific ds lead) := by
  have power := layout.isExponent_signed lead
  unfold scientific
  dsimp only
  rw [List.append_assoc, List.cons_append]
  split
  · next d e rest =>
    have first : ∀ c ∈ [d], c.isDigit := by simp [digits d]
    have others : ∀ c ∈ e :: rest, c.isDigit := fun c hc => digits c (List.mem_cons_of_mem _ hc)
    exact .intro (List.cons_ne_nil d []) first (.inr ⟨_, rfl, others⟩) (.inr power)
  · exact .intro nonempty digits (.inl rfl) (.inr power)

theorem numeral_decimal (d : Decimal) : Numeral (layout.decimal d) := by
  have figures := digits_ne_nil d.coefficient
  have all : ∀ c ∈ digits d.coefficient, c.isDigit := fun _ => isDigit_of_mem_digits
  unfold decimal
  dsimp only
  split
  · exact layout.numeral_position figures all d.exponent
  · exact layout.numeral_scientific figures all _

theorem writesSigned : WritesSigned layout.write := by
  intro x finite
  unfold isFinite at finite
  split at finite
  · next negative mantissa exponent taken =>
    have sign : negative = isNegative x := by
      unfold Binary64.ofFloat at taken
      dsimp only at taken
      split at taken
      · split at taken <;> cases taken
      split at taken
      · exact (Binary64.finite.inj taken).1.symm
      · exact (Binary64.finite.inj taken).1.symm
    subst sign
    unfold write
    rw [taken]
    refine ⟨if mantissa = 0 then layout.decimal ⟨0, 0⟩
      else layout.decimal (shortest layout.tie mantissa exponent), ?_, ?_⟩
    · split <;> exact layout.numeral_decimal _
    · cases isNegative x <;> rfl
  · cases finite

end Layout
end EntityQuery.Number
