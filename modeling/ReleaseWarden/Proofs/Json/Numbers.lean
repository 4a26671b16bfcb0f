import ReleaseWarden.Json.Parser
import ReleaseWarden.Json.Printer

/-! Reading numbers that were written. All parts of the spelling come back, provided that what
follows does not go on with the number. -/

set_option autoImplicit false

namespace ReleaseWarden.Json

open Text

/-- The first character, if there is any, is no digit. -/
def DigitFree (cs : List Char) : Prop := ∀ c ∈ cs.head?, c.isDigit = false

/-- The first character, if there is any, cannot go on with a number. -/
def EndsNumber (cs : List Char) : Prop :=
  ∀ c ∈ cs.head?, c.isDigit = false ∧ c ≠ '.' ∧ c ≠ 'e' ∧ c ≠ 'E'

theorem isDigit_digitChar (d : Fin 10) : (Nat.digitChar d.val).isDigit = true := by
  have hall : ∀ d : Fin 10, (Nat.digitChar d.val).isDigit = true := by decide
  exact hall d

theorem ofNat_digitChar (d : Fin 10) :
    Fin.ofNat 10 ((Nat.digitChar d.val).toNat - '0'.toNat) = d := by
  have hall : ∀ d : Fin 10, Fin.ofNat 10 ((Nat.digitChar d.val).toNat - '0'.toNat) = d := by decide
  exact hall d

theorem takeDigits_writeDigits (ds : List (Fin 10)) {rest : List Char} (hrest : DigitFree rest) :
    takeDigits (writeDigits ds ++ rest) = (ds, rest) := by
  have hdigits : ∀ c ∈ writeDigits ds, c.isDigit = true := by
    intro c hc
    obtain ⟨d, _, rfl⟩ := List.mem_map.mp hc
    exact isDigit_digitChar d
  have htake : rest.takeWhile Char.isDigit = [] := by
    cases rest with
    | nil => rfl
    | cons c cs => rw [List.takeWhile_cons, hrest c rfl]; rfl
  have hdrop : rest.dropWhile Char.isDigit = rest := by
    cases rest with
    | nil => rfl
    | cons c cs => rw [List.dropWhile_cons, hrest c rfl]; rfl
  unfold takeDigits
  rw [List.takeWhile_append_of_pos hdigits, List.dropWhile_append_of_pos hdigits, htake, hdrop,
    List.append_nil, writeDigits, List.map_map]
  congr 1
  conv => rhs; rw [← List.map_id ds]
  apply List.map_congr_left
  intro d _
  exact ofNat_digitChar d

theorem ofDigits_concat (ds : List (Fin 10)) (d : Fin 10) :
    ofDigits (ds ++ [d]) = ofDigits ds * 10 + d.val := by
  rw [ofDigits, List.foldl_append]
  rfl

theorem exists_digits (n : Nat) : ∃ d ds, Nat.toDigits 10 n = writeDigits (d :: ds) ∧
    ofDigits (d :: ds) = n ∧ (d = 0 → ds = []) := by
  induction n using Nat.strongRecOn with
  | ind n ih =>
    by_cases hlt : n < 10
    · refine ⟨⟨n, hlt⟩, [], Nat.toDigits_of_lt_base hlt, ?_, fun _ => rfl⟩
      simp [ofDigits]
    · obtain ⟨d, ds, hdigits, hvalue, hzero⟩ := ih (n / 10) (by omega)
      refine ⟨d, ds ++ [⟨n % 10, by omega⟩], ?_, ?_, ?_⟩
      · rw [Nat.toDigits_of_base_le (by omega) (by omega), hdigits]
        simp [writeDigits]
      · rw [← List.cons_append, ofDigits_concat, hvalue]
        simp only
        omega
      · intro hd
        rw [hzero hd, hd] at hvalue
        simp [ofDigits] at hvalue
        omega

theorem toDigits_eq_cons (n : Nat) :
    ∃ c cs, Nat.toDigits 10 n = c :: cs ∧ c.isDigit = true := by
  obtain ⟨d, ds, hdigits, _, _⟩ := exists_digits n
  exact ⟨_, _, hdigits, isDigit_digitChar d⟩

theorem readWhole_toDigits (n : Nat) {rest : List Char} (hrest : DigitFree rest) :
    readWhole (Nat.toDigits 10 n ++ rest) = some (n, rest) := by
  obtain ⟨d, ds, hdigits, hvalue, hzero⟩ := exists_digits n
  rw [readWhole, hdigits, takeDigits_writeDigits _ hrest]
  cases ds with
  | nil =>
    have hd : d.val = n := by simpa [ofDigits] using hvalue
    simp only [hd]
  | cons d' ds =>
    have hd : d ≠ 0 := fun h => nomatch hzero h
    simp only [if_neg hd, hvalue]

theorem readExponentDigits_toDigits (negative : Bool) (n : Nat) {rest : List Char}
    (hrest : DigitFree rest) : readExponentDigits negative (Nat.toDigits 10 n ++ rest) =
      some (some (if negative then -(n : Int) else n), rest) := by
  obtain ⟨d, ds, hdigits, hvalue, _⟩ := exists_digits n
  rw [readExponentDigits, hdigits, takeDigits_writeDigits _ hrest]
  simp only [hvalue]

theorem digitFree_of_endsNumber {rest : List Char} (h : EndsNumber rest) : DigitFree rest :=
  fun c hc => (h c hc).1

theorem head?_writeExponent_append (e : Option Int) {rest : List Char} (h : EndsNumber rest) :
    ∀ c ∈ (writeExponent e ++ rest).head?, c.isDigit = false ∧ c ≠ '.' := by
  intro c hc
  cases e with
  | none => exact ⟨(h c hc).1, (h c hc).2.1⟩
  | some e =>
    obtain rfl : 'e' = c := Option.some.inj hc
    decide

theorem readFraction_of_ne_point {cs : List Char} (h : ∀ c ∈ cs.head?, c ≠ '.') :
    readFraction cs = some ([], cs) := by
  cases cs with
  | nil => rfl
  | cons c cs =>
    rw [readFraction]
    intro _ heq
    exact h c rfl (List.cons.inj heq).1

theorem readFraction_point {ds : List (Fin 10)} (hds : ds ≠ []) {rest : List Char}
    (hrest : DigitFree rest) :
    readFraction ('.' :: writeDigits ds ++ rest) = some (ds, rest) := by
  rw [List.cons_append, readFraction, takeDigits_writeDigits ds hrest]
  cases ds with
  | nil => exact absurd rfl hds
  | cons d ds => rfl

theorem readExponent_writeExponent (e : Option Int) {rest : List Char} (h : EndsNumber rest) :
    readExponent (writeExponent e ++ rest) = some (e, rest) := by
  have hfree := digitFree_of_endsNumber h
  cases e with
  | none =>
    cases rest with
    | nil => rfl
    | cons c cs =>
      obtain ⟨_, _, he, hE⟩ := h c rfl
      simp [writeExponent, readExponent, he, hE]
  | some e =>
    by_cases hneg : e < 0
    · have habs : -(e.natAbs : Int) = e := by omega
      simp only [writeExponent, if_pos hneg, List.cons_append, List.nil_append, readExponent,
        true_or, if_true]
      rw [readExponentDigits_toDigits true _ hfree, if_pos rfl, habs]
    · have habs : (e.natAbs : Int) = e := by omega
      obtain ⟨c, cs, hcons, hdigit⟩ := toDigits_eq_cons e.natAbs
      have hread := readExponentDigits_toDigits false e.natAbs hfree
      simp only [writeExponent, if_neg hneg, List.cons_append, List.nil_append, readExponent,
        true_or, if_true]
      rw [hcons, List.cons_append] at hread ⊢
      split
      · rename_i heq
        obtain rfl : c = '+' := (List.cons.inj heq).1
        cases hdigit
      · rename_i heq
        obtain rfl : c = '-' := (List.cons.inj heq).1
        cases hdigit
      · rw [hread, if_neg Bool.false_ne_true, habs]

theorem readFraction_writeFraction (ds : List (Fin 10)) (e : Option Int) {rest : List Char}
    (h : EndsNumber rest) :
    readFraction (writeFraction ds ++ (writeExponent e ++ rest)) =
      some (ds, writeExponent e ++ rest) := by
  have hhead := head?_writeExponent_append e h
  cases ds with
  | nil => exact readFraction_of_ne_point fun c hc => (hhead c hc).2
  | cons d ds => exact readFraction_point (List.cons_ne_nil d ds) fun c hc => (hhead c hc).1

theorem digitFree_writeFraction (ds : List (Fin 10)) (e : Option Int) {rest : List Char}
    (h : EndsNumber rest) : DigitFree (writeFraction ds ++ (writeExponent e ++ rest)) := by
  intro c hc
  cases ds with
  | nil => exact (head?_writeExponent_append e h c hc).1
  | cons d ds =>
    obtain rfl : '.' = c := Option.some.inj hc
    decide

theorem readUnsigned_write (negative : Bool) (whole : Nat) (ds : List (Fin 10)) (e : Option Int)
    {rest : List Char} (h : EndsNumber rest) :
    readUnsigned negative
      (Nat.toDigits 10 whole ++ (writeFraction ds ++ (writeExponent e ++ rest))) =
        some (⟨negative, whole, ds, e⟩, rest) := by
  simp only [readUnsigned, readWhole_toDigits whole (digitFree_writeFraction ds e h),
    readFraction_writeFraction ds e h, readExponent_writeExponent e h, bind, Option.bind, pure]

theorem readNumber_writeNumber (n : Number) {rest : List Char} (h : EndsNumber rest) :
    readNumber (writeNumber n ++ rest) = some (n, rest) := by
  obtain ⟨negative, whole, fraction, exponent⟩ := n
  have hread := readUnsigned_write negative whole fraction exponent h
  simp only [writeNumber, List.append_assoc]
  cases negative with
  | true => exact hread
  | false =>
    obtain ⟨c, cs, hcons, hdigit⟩ := toDigits_eq_cons whole
    rw [hcons] at hread
    rw [if_neg Bool.false_ne_true, hcons, List.nil_append, List.cons_append, readNumber]
    · exact hread
    · intro _ heq
      obtain rfl : c = '-' := (List.cons.inj heq).1
      cases hdigit

end ReleaseWarden.Json
