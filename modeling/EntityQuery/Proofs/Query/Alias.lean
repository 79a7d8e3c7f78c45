import EntityQuery.Metamodel
import EntityQuery.Query.Alias
import Mathlib.Data.List.Induction
import Mathlib.Data.List.Nodup
import Mathlib.Data.List.Perm.Subperm
import Mathlib.Data.List.Shortlex
import Mathlib.Data.Nat.Init
import Mathlib.Order.RelClasses

/-! Names of sources. The numbers name all words over the letters, the shorter ones first, so every
number has a name of its own. There are enough that are not reserved, and those that are listed for
some sources are listed for more. -/
namespace EntityQuery.Alias

/-! ### Letters -/

theorem letter_bounds (n : Nat) : 'A' ≤ letter n ∧ letter n ≤ 'Z' := by
  have all : ∀ k < 26, 'A' ≤ Char.ofNat ('A'.toNat + k) ∧ Char.ofNat ('A'.toNat + k) ≤ 'Z' := by
    decide
  exact all (n % 26) (Nat.mod_lt n (by decide))

theorem letter_lt {m n : Nat} (h : m % 26 < n % 26) : letter m < letter n := by
  have all : ∀ k < 26, ∀ j < k, Char.ofNat ('A'.toNat + j) < Char.ofNat ('A'.toNat + k) := by
    decide
  exact all (n % 26) (Nat.mod_lt n (by decide)) (m % 26) h

theorem exists_letter {c : Char} (first : 'A' ≤ c) (last : c ≤ 'Z') : ∃ d < 26, letter d = c := by
  have low : 65 ≤ c.toNat := first
  have high : c.toNat ≤ 90 := last
  have number : 65 + (c.toNat - 65) % 26 = c.toNat := by omega
  refine ⟨c.toNat - 65, by omega, ?_⟩
  rw [letter, show 'A'.toNat = 65 from rfl, number, Char.ofNat_toNat]

theorem isAlpha_of_bounds {c : Char} (first : 'A' ≤ c) (last : c ≤ 'Z') : c.isAlpha := by
  obtain ⟨d, small, rfl⟩ := exists_letter first last
  have all : ∀ k < 26, (letter k).isAlpha := by decide
  exact all d small

/-! ### Words -/

theorem letters_of_lt {d : Nat} (small : d < 26) : letters d = [letter d] := by
  rw [letters, if_pos small]

/-- The last letter tells the remainder, those before it the quotient. -/
theorem letters_of_ge {n : Nat} (large : ¬n < 26) :
    letters n = letters (n / 26 - 1) ++ [letter n] := by
  rw [letters, if_neg large]

theorem letters_ne_nil (n : Nat) : letters n ≠ [] := by
  unfold letters
  split <;> simp

theorem bounds_of_mem_letters {n : Nat} {c : Char} (h : c ∈ letters n) : 'A' ≤ c ∧ c ≤ 'Z' := by
  induction n using letters.induct with
  | case1 n small =>
    rw [letters_of_lt small] at h
    obtain rfl := List.mem_singleton.1 h
    exact letter_bounds n
  | case2 n large ih =>
    rw [letters_of_ge large] at h
    rcases List.mem_append.1 h with before | last
    · exact ih before
    · obtain rfl := List.mem_singleton.1 last
      exact letter_bounds n

/-- Every word is that of a number. -/
theorem exists_letters {cs : List Char} (some : cs ≠ []) (word : ∀ c ∈ cs, 'A' ≤ c ∧ c ≤ 'Z') :
    ∃ n, letters n = cs := by
  induction cs using List.reverseRecOn with
  | nil => exact absurd rfl some
  | append_singleton cs c ih =>
    obtain ⟨before, last⟩ := List.forall_mem_append.1 word
    obtain ⟨first, last⟩ := last c (List.mem_singleton.2 rfl)
    obtain ⟨d, small, rfl⟩ := exists_letter first last
    by_cases single : cs = []
    · exact ⟨d, by rw [letters_of_lt small, single, List.nil_append]⟩
    · obtain ⟨n, rfl⟩ := ih single before
      have quotient : (26 * (n + 1) + d) / 26 - 1 = n := by omega
      have remainder : (26 * (n + 1) + d) % 26 = d % 26 := by omega
      refine ⟨26 * (n + 1) + d, ?_⟩
      rw [letters_of_ge (by omega), quotient, letter, letter, remainder]

/-- A word of one letter is not one of more. -/
theorem length_letters_of_ge {n : Nat} (large : ¬n < 26) : 1 < (letters n).length := by
  have some := List.length_pos_of_ne_nil (letters_ne_nil (n / 26 - 1))
  rw [letters_of_ge large, List.length_append, List.length_singleton]
  omega

/-- Words in order stay so with another letter each. -/
theorem shortlex_append {cs ds : List Char} {c d : Char} (h : List.Shortlex (· < ·) cs ds) :
    List.Shortlex (· < ·) (cs ++ [c]) (ds ++ [d]) := by
  have lex {cs ds : List Char} (same : cs.length = ds.length) (h : List.Lex (· < ·) cs ds) :
      List.Lex (· < ·) (cs ++ [c]) (ds ++ [d]) := by
    induction h with
    | nil => cases same
    | cons _ ih => exact .cons (ih (Nat.succ.inj same))
    | rel less => exact .rel less
  rcases List.shortlex_def.1 h with shorter | ⟨same, less⟩
  · exact .of_length_lt (by simpa using shorter)
  · exact .of_lex (by simpa using same) (lex same less)

/-- The words of the numbers are in order, the shorter ones first. -/
theorem letters_lt {m n : Nat} (h : m < n) : List.Shortlex (· < ·) (letters m) (letters n) := by
  induction n using letters.induct generalizing m with
  | case1 n small =>
    rw [letters_of_lt small, letters_of_lt (h.trans small), List.shortlex_singleton_iff]
    exact letter_lt (by omega)
  | case2 n large ih =>
    by_cases small : m < 26
    · refine .of_length_lt ?_
      rw [letters_of_lt small]
      exact length_letters_of_ge large
    rw [letters_of_ge small, letters_of_ge large]
    rcases Nat.lt_or_ge (m / 26 - 1) (n / 26 - 1) with quotient | quotient
    · exact shortlex_append (ih quotient)
    · have same : m / 26 - 1 = n / 26 - 1 := by omega
      have remainder := (List.shortlex_singleton_iff (letter m) (letter n)).2 (letter_lt (by omega))
      rw [same]
      exact remainder.append_left _

/-! ### Names -/

/-- Words over the letters. -/
def IsWord (s : String) : Prop := s ≠ "" ∧ ∀ c ∈ s.toList, 'A' ≤ c ∧ c ≤ 'Z'

/-- The shorter text comes first, and of two of one length the alphabetically first. -/
def Before (s t : String) : Prop := List.Shortlex (· < ·) s.toList t.toList

theorem Before.asymm {s t : String} (h : Before s t) : ¬Before t s :=
  Std.Asymm.asymm (r := List.Shortlex fun a b : Char => a < b) _ _ h

theorem nodup_of_before {l : List String} (h : l.Pairwise Before) : l.Nodup :=
  h.imp fun before same => (same ▸ before).asymm (same ▸ before)

theorem name_before {m n : Nat} (h : m < n) : Before (name m) (name n) := by
  rw [Before, name, name, String.toList_ofList, String.toList_ofList]
  exact letters_lt h

theorem lt_of_name_before {m n : Nat} (h : Before (name m) (name n)) : m < n := by
  rcases Nat.lt_trichotomy m n with less | rfl | greater
  · exact less
  · exact absurd h h.asymm
  · exact absurd (name_before greater) h.asymm

theorem isWord_name (n : Nat) : IsWord (name n) := by
  refine ⟨fun empty => letters_ne_nil n (String.ofList_injective empty), fun c h => ?_⟩
  rw [name, String.toList_ofList] at h
  exact bounds_of_mem_letters h

theorem IsWord.exists_name {s : String} (word : IsWord s) : ∃ n, name n = s := by
  obtain ⟨some, bounds⟩ := word
  obtain ⟨n, same⟩ := exists_letters (fun none => some (String.toList_eq_nil_iff.1 none)) bounds
  exact ⟨n, by rw [name, same, String.ofList_toList]⟩

theorem IsWord.isIdentifier {s : String} (word : IsWord s) : isIdentifier s := by
  obtain ⟨some, bounds⟩ := word
  have all {c : Char} (h : c ∈ s.toList) : c.isAlpha :=
    isAlpha_of_bounds (bounds c h).1 (bounds c h).2
  unfold EntityQuery.isIdentifier
  split
  · next none => exact absurd (String.toList_eq_nil_iff.1 none) some
  · next c cs some =>
    rw [some] at all
    simp only [Bool.and_eq_true, Bool.or_eq_true, List.all_eq_true, Char.isAlphanum]
    exact ⟨.inl (all List.mem_cons_self), fun d hd => .inl (.inl (all (List.mem_cons_of_mem _ hd)))⟩

/-- The names of the first `limit` numbers that are not reserved. -/
def unreserved (limit : Nat) : List String :=
  ((List.range limit).map name).filter fun s => !reserved.contains s

theorem mem_unreserved {limit : Nat} {s : String} :
    s ∈ unreserved limit ↔ (∃ n < limit, name n = s) ∧ s ∉ reserved := by
  simp [unreserved, List.mem_filter]

theorem pairwise_unreserved (limit : Nat) : (unreserved limit).Pairwise Before :=
  (List.pairwise_lt_range.map name fun _ _ => name_before).filter _

/-- No more names are reserved than there are to spare. -/
theorem le_length_unreserved (count : Nat) :
    count ≤ (unreserved (count + reserved.length)).length := by
  let candidates := (List.range (count + reserved.length)).map name
  have nodup : candidates.Nodup :=
    nodup_of_before (List.pairwise_lt_range.map name fun _ _ => name_before)
  have taken : (candidates.filter fun n => reserved.contains n).length ≤ reserved.length := by
    refine ((nodup.filter _).subperm fun s hs => ?_).length_le
    exact List.contains_iff_mem.1 (List.mem_filter.1 hs).2
  have parts := candidates.length_eq_length_filter_add (fun n => reserved.contains n)
  have total : candidates.length = count + reserved.length := by simp [candidates]
  change count ≤ (candidates.filter fun n => !reserved.contains n).length
  omega

theorem unreserved_add (limit more : Nat) : unreserved limit <+: unreserved (limit + more) := by
  rw [unreserved, unreserved, List.range_add, List.map_append, List.filter_append]
  exact List.prefix_append _ _

theorem names_eq_take (count : Nat) :
    names count = (unreserved (count + reserved.length)).take count := rfl

theorem length_names (count : Nat) : (names count).length = count := by
  rw [names_eq_take, List.length_take, min_eq_left (le_length_unreserved count)]

theorem isIdentifier_of_mem_names {count : Nat} {s : String} (h : s ∈ names count) :
    isIdentifier s := by
  obtain ⟨⟨n, -, rfl⟩, -⟩ := mem_unreserved.1 (List.mem_of_mem_take h)
  exact (isWord_name n).isIdentifier

theorem ne_empty_of_mem_names {count : Nat} {s : String} (h : s ∈ names count) : s ≠ "" := by
  rintro rfl
  cases isIdentifier_of_mem_names h

theorem pairwise_names (count : Nat) : (names count).Pairwise Before :=
  (pairwise_unreserved _).sublist (List.take_sublist _ _)

theorem nodup_names (count : Nat) : (names count).Nodup := nodup_of_before (pairwise_names count)

/-- What comes before a listed name is listed too, unless it is reserved. -/
theorem mem_names_of_before {count : Nat} {s t : String} (hs : s ∈ names count) (word : IsWord t)
    (allowed : t ∉ reserved) (before : Before t s) : t ∈ names count := by
  obtain ⟨⟨k, small, rfl⟩, -⟩ := mem_unreserved.1 (List.mem_of_mem_take hs)
  obtain ⟨j, rfl⟩ := word.exists_name
  have listed : name j ∈ unreserved (count + reserved.length) :=
    mem_unreserved.2 ⟨⟨j, (lt_of_name_before before).trans small, rfl⟩, allowed⟩
  have ordered := pairwise_unreserved (count + reserved.length)
  rw [← List.take_append_drop count (unreserved _)] at listed ordered
  rcases List.mem_append.1 listed with taken | dropped
  · exact taken
  · exact absurd before ((List.pairwise_append.1 ordered).2.2 _ hs _ dropped).asymm

theorem names_prefix (count : Nat) : names count <+: names (count + 1) := by
  have enough := le_length_unreserved count
  obtain ⟨others, more⟩ := unreserved_add (count + reserved.length) 1
  have longer : names (count + 1) =
      (unreserved (count + reserved.length) ++ others).take (count + 1) := by
    rw [more, names_eq_take, Nat.add_right_comm]
  have same : names count = (names (count + 1)).take count := by
    rw [longer, List.take_take, min_eq_left (Nat.le_succ count),
      List.take_append_of_le_length enough, names_eq_take]
  rw [same]
  exact List.take_prefix _ _

/-- Any number of sources have as many names: the first words over the letters that are not
reserved, the shorter ones first. With one more source the others keep theirs. -/
theorem names_enumerate (count : Nat) :
    (names count).length = count ∧
    (∀ s ∈ names count, IsWord s ∧ s ∉ reserved) ∧
    (names count).Nodup ∧
    (names count).Pairwise Before ∧
    (∀ s ∈ names count, ∀ t, IsWord t → t ∉ reserved → Before t s → t ∈ names count) ∧
    names count <+: names (count + 1) := by
  refine ⟨length_names count, fun s hs => ?_, nodup_names count, pairwise_names count,
    fun s hs t word allowed before => mem_names_of_before hs word allowed before,
    names_prefix count⟩
  obtain ⟨⟨n, -, rfl⟩, allowed⟩ := mem_unreserved.1 (List.mem_of_mem_take hs)
  exact ⟨isWord_name n, allowed⟩

end EntityQuery.Alias
