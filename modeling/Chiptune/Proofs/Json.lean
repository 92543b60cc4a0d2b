import Chiptune.Json.Value

/-!
# `Chiptune.Proofs.Json`: plain values are read as they are written

A whole number in decimal digits, a truth value and a name without escapes, each in front of what
may follow it. A number is the one kind of value whose end is known only by what follows: the
digits, the point and the exponent have to stop (`Json.StopsNumber`).

* `Json.readNat_digits`, `Json.readBool_word`, `Json.readText_plain`: the three kinds.
-/

set_option autoImplicit false

namespace Chiptune.Json

variable {cs rest : List Char}

/-! ### Numbers -/

/-- What follows does not go on with a number. -/
def StopsNumber (rest : List Char) : Prop :=
  ∀ c ∈ rest.head?, c.isDigit = false ∧ c ≠ '.' ∧ c ≠ 'e' ∧ c ≠ 'E'

theorem finish_of_stops (significand : Nat) (h : StopsNumber rest) :
    finish false significand rest = .ok (.unsigned significand, rest) := by
  cases rest with
  | nil => rfl
  | cons c more =>
    obtain ⟨-, hpoint, hsmall, hlarge⟩ := h c rfl
    unfold finish
    split
    · next heq =>
      obtain ⟨rfl, -⟩ := List.cons.inj heq
      exact absurd rfl hpoint
    · next heq =>
      obtain ⟨rfl, rfl⟩ := List.cons.inj heq
      rw [if_neg (by simp [hsmall, hlarge])]
      rfl
    · next heq => nomatch heq

theorem wholeDigits_of_stops (negative : Bool) (significand : Nat) (h : StopsNumber rest) :
    wholeDigits negative significand rest = finish negative significand rest := by
  cases rest with
  | nil => rfl
  | cons c more =>
    obtain ⟨hdigit, -⟩ := h c rfl
    simp [wholeDigits, hdigit]

/-- More digits do not make a number less. -/
theorem le_ofDigitChars (cs : List Char) (n : Nat) : n ≤ Nat.ofDigitChars 10 cs n := by
  induction cs generalizing n with
  | nil => exact Nat.le_refl n
  | cons c cs ih =>
    rw [Nat.ofDigitChars_cons]
    exact Nat.le_trans (by omega) (ih _)

/-- Digits are taken in as long as the number that they make fits. -/
theorem wholeDigits_append (negative : Bool) {significand : Nat}
    (hdigits : ∀ c ∈ cs, c.isDigit = true)
    (hfits : Nat.ofDigitChars 10 cs significand ≤ maxUnsigned) (h : StopsNumber rest) :
    wholeDigits negative significand (cs ++ rest)
      = finish negative (Nat.ofDigitChars 10 cs significand) rest := by
  induction cs generalizing significand with
  | nil => exact wholeDigits_of_stops negative significand h
  | cons c cs ih =>
    rw [Nat.ofDigitChars_cons] at hfits ⊢
    have hgrown : ¬maxUnsigned < 10 * significand + (c.toNat - 48) :=
      Nat.not_lt_of_le (Nat.le_trans (le_ofDigitChars cs _) hfits)
    rw [List.cons_append, wholeDigits, if_pos (hdigits c List.mem_cons_self)]
    dsimp only
    rw [if_neg hgrown]
    exact ih (fun c hc => hdigits c (List.mem_cons_of_mem _ hc)) hfits

/-- Only the number zero is written with a zero in front. -/
theorem digits_cases (n : Nat) :
    (n = 0 ∧ Decimal.digits n = ['0']) ∨
      ∃ c cs, Decimal.digits n = c :: cs ∧ c ≠ '0' ∧ c.isDigit = true := by
  have hten : 1 < 10 := by decide
  have hdigit : ∀ d : Fin 10, d.val ≠ 0 → d.val.digitChar ≠ '0' ∧ d.val.digitChar.isDigit := by
    decide
  unfold Decimal.digits
  induction n using Nat.base_induction 10 hten with
  | single m hm =>
    rw [Nat.toDigits_of_lt_base hm]
    by_cases hzero : m = 0
    · subst hzero
      exact .inl ⟨rfl, rfl⟩
    · exact .inr ⟨_, [], rfl, hdigit ⟨m, hm⟩ hzero⟩
  | digit m k hk hm ih =>
    -- What stands in front of the last digit is a number above zero.
    obtain ⟨hzero, -⟩ | ⟨c, cs, hcs, hc⟩ := ih
    · omega
    · rw [← Nat.toDigits_append_toDigits hten hm hk, hcs]
      exact .inr ⟨c, _, rfl, hc⟩

/-- Decimal digits are read back, in front of anything that does not go on with a number. -/
theorem readNumber_digits {n : Nat} (hfits : n ≤ maxUnsigned) (h : StopsNumber rest) :
    readNumber false (Decimal.digits n ++ rest) = .ok (.unsigned n, rest) := by
  have hdigits : ∀ c ∈ Decimal.digits n, c.isDigit = true := by
    intro c hc
    exact Nat.isDigit_of_mem_toDigits (by decide) (by decide) hc
  have hvalue : Nat.ofDigitChars 10 (Decimal.digits n) 0 = n := Nat.ofDigitChars_ten_toDigits
  obtain ⟨rfl, hzero⟩ | ⟨c, cs, hcs, hne, hdigit⟩ := digits_cases n
  · rw [hzero]
    cases rest with
    | nil => rfl
    | cons c more =>
      obtain ⟨hstops, -⟩ := h c rfl
      have hfinish := finish_of_stops 0 h
      simpa [readNumber, hstops] using hfinish
  · rw [hcs] at hdigits hvalue ⊢
    rw [Nat.ofDigitChars_cons] at hvalue
    have hwhole := wholeDigits_append false
      (fun c hc => hdigits c (List.mem_cons_of_mem _ hc)) (by rw [hvalue]; exact hfits) h
    rw [hvalue, finish_of_stops n h] at hwhole
    simpa [readNumber, hne, hdigit] using hwhole

theorem not_isBlank_of_isDigit {c : Char} (h : c.isDigit = true) : isBlank c = false := by
  cases hblank : isBlank c with
  | false => rfl
  | true =>
    simp only [isBlank, Bool.or_eq_true, decide_eq_true_eq] at hblank
    obtain ((rfl | rfl) | rfl) | rfl := hblank
    all_goals exact absurd h (by decide)

theorem readNat_digits {limit n : Nat} (expected : String) (hlimit : limit ≤ maxUnsigned)
    (hn : n ≤ limit) (h : StopsNumber rest) :
    readNat limit expected (Decimal.digits n ++ rest) = .ok (n, rest) := by
  have hnumber := readNumber_digits (Nat.le_trans hn hlimit) h
  obtain ⟨c, cs, hcs, hdigit⟩ : ∃ c cs, Decimal.digits n = c :: cs ∧ c.isDigit = true := by
    obtain ⟨-, hzero⟩ | ⟨c, cs, hcs, -, hdigit⟩ := digits_cases n
    · exact ⟨'0', [], hzero, rfl⟩
    · exact ⟨c, cs, hcs, hdigit⟩
  -- A digit is neither a blank nor a sign.
  have hblank : isBlank c = false := not_isBlank_of_isDigit hdigit
  have hsign : c ≠ '-' := by
    rintro rfl
    exact absurd hdigit (by decide)
  rw [hcs, List.cons_append] at hnumber ⊢
  have hskip : skipBlanks (c :: (cs ++ rest)) = c :: (cs ++ rest) := by
    simp [skipBlanks, hblank]
  simp [readNat, hskip, hsign, hdigit, hnumber, Number.fit, hn, bind, Except.bind]

/-! ### Words and names -/

theorem readBool_word (b : Bool) (rest : List Char) :
    readBool ((if b then "true".toList else "false".toList) ++ rest) = .ok (b, rest) := by
  cases b with
  | true => rfl
  | false => rfl

/-- A character that stands for itself in a text. -/
def Plain (c : Char) : Prop := c ≠ '"' ∧ c ≠ '\\' ∧ 0x20 ≤ c.toNat

instance (c : Char) : Decidable (Plain c) := inferInstanceAs (Decidable (_ ∧ _ ∧ _))

theorem readTextOnto_plain (h : ∀ c ∈ cs, Plain c) (done : List Char) :
    readTextOnto done (cs ++ '"' :: rest) = .ok (done.reverse ++ cs, rest) := by
  induction cs generalizing done with
  | nil => simp [readTextOnto]
  | cons c cs ih =>
    obtain ⟨⟨hquote, hescape, hcontrol⟩, hcs⟩ := List.forall_mem_cons.mp h
    rw [List.cons_append, readTextOnto, if_neg hquote, if_neg hescape,
      if_neg (Nat.not_lt_of_le hcontrol), ih hcs]
    simp

/-- A text of plain characters is read back from between its quotes. -/
theorem readText_plain (h : ∀ c ∈ cs, Plain c) :
    readText (cs ++ '"' :: rest) = .ok (cs, rest) := readTextOnto_plain h []

end Chiptune.Json
