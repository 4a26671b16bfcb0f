import ReleaseWarden.Config.Parser
import ReleaseWarden.Proofs.Config.Assignments

/-! The values of a configuration as they are spelt. A number may have a sign and zeros before it,
and a text stands in quotes. Each spelling is read as its value, and nothing in it ends the line or
begins a comment. -/

set_option autoImplicit false

namespace ReleaseWarden.Config

open Text Schema

/-- Zero may have either sign. -/
inductive SpellsNumber : Nat → List Char → Prop
  | plain (zeros n : Nat) : SpellsNumber n (decimal zeros n)
  | plus (zeros n : Nat) : SpellsNumber n ('+' :: decimal zeros n)
  | minus (zeros : Nat) : SpellsNumber 0 ('-' :: List.replicate (zeros + 1) '0')

inductive SpellsBool : Bool → List Char → Prop
  | yes : SpellsBool true ['t', 'r', 'u', 'e']
  | no : SpellsBool false ['f', 'a', 'l', 's', 'e']

inductive SpellsText : String → List Char → Prop
  | quoted {text : String} : '"' ∉ text.toList → '\n' ∉ text.toList →
      SpellsText text ('"' :: (text.toList ++ ['"']))

def SpellsValue : Assignment → List Char → Prop
  | .minSizeMb mb => SpellsNumber mb.toNat
  | .maxSizeMb mb => SpellsNumber mb.toNat
  | .minSeeders seeders => SpellsNumber seeders.toNat
  | .retentionDays days => SpellsNumber days.toNat
  | .minimumAgeMinutes minutes => SpellsNumber minutes.toNat
  | .rejectEncrypted yes => SpellsBool yes
  | .autoRedownloadFailed yes => SpellsBool yes
  | .databasePath path => SpellsText path

/-- A character that can stand in a key or in a value without quotes. -/
def IsPlain (c : Char) : Prop := isBlank c = false ∧ c ≠ '#' ∧ c ≠ '"' ∧ c ≠ '='

instance (c : Char) : Decidable (IsPlain c) := inferInstanceAs (Decidable (_ ∧ _))

variable {n : Nat} {cs : List Char}

theorem isPlain_of_all (h : cs.all (fun c => decide (IsPlain c)) = true) : ∀ c ∈ cs, IsPlain c :=
  fun c hc => of_decide_eq_true (List.all_eq_true.mp h c hc)

theorem isPlain_of_isDigit {c : Char} (h : c.isDigit = true) : IsPlain c := by
  have hbounds : 48 ≤ c.toNat ∧ c.toNat ≤ 57 := by
    simp only [Char.isDigit, Bool.and_eq_true, decide_eq_true_eq] at h
    exact h
  refine ⟨?_, ?_, ?_, ?_⟩
  · simp [isBlank, blankRanges]
    omega
  all_goals
    rintro rfl
    exact absurd h (by decide)

theorem isDigit_of_mem_decimal {zeros : Nat} {c : Char} (h : c ∈ decimal zeros n) :
    c.isDigit = true := by
  rcases List.mem_append.mp h with h | h
  · rw [(List.mem_replicate.mp h).2]
    rfl
  · exact Nat.isDigit_of_mem_toDigits (by omega) (by omega) h

theorem decimal_ne_nil (zeros n : Nat) : decimal zeros n ≠ [] :=
  List.append_ne_nil_of_right_ne_nil _ Nat.toDigits_ne_nil

theorem SpellsNumber.isPlain (h : SpellsNumber n cs) : ∀ c ∈ cs, IsPlain c := by
  intro c hc
  cases h with
  | plain zeros n => exact isPlain_of_isDigit (isDigit_of_mem_decimal hc)
  | plus zeros n =>
    rcases List.mem_cons.mp hc with rfl | hc
    · decide
    · exact isPlain_of_isDigit (isDigit_of_mem_decimal hc)
  | minus zeros =>
    rcases List.mem_cons.mp hc with rfl | hc
    · decide
    · rw [(List.mem_replicate.mp hc).2]
      decide

theorem SpellsNumber.ne_nil (h : SpellsNumber n cs) : cs ≠ [] := by
  cases h with
  | plain zeros n => exact decimal_ne_nil zeros n
  | plus zeros n => exact List.cons_ne_nil _ _
  | minus zeros => exact List.cons_ne_nil _ _

section

variable {least greatest : Int}

theorem foldlM_raise_decimal (h : (n : Int) ≤ greatest) (zeros : Nat) :
    (decimal zeros n).foldlM (raise greatest) 0 = .ok (n : Int) := by
  rw [decimal, List.foldlM_append, foldlM_raise_zeros (by omega) zeros]
  exact foldlM_raise_toDigits h

theorem foldlM_lower_zeros (h : least ≤ 0) (zeros : Nat) :
    (List.replicate zeros '0').foldlM (lower least) 0 = .ok 0 := by
  induction zeros with
  | zero => rfl
  | succ zeros ih =>
    have hzero : lower least 0 '0' = .ok 0 := by simp [lower, digit?, h]
    rw [List.replicate_succ, List.foldlM_cons, hzero]
    exact ih

theorem readInteger_of_spells (h : SpellsNumber n cs) (hleast : least ≤ 0)
    (hgreatest : (n : Int) ≤ greatest) : readInteger least greatest cs = .ok (n : Int) := by
  cases h with
  | plain zeros n =>
    have hfold := foldlM_raise_decimal hgreatest zeros
    obtain ⟨c, rest, hcs⟩ := List.exists_cons_of_ne_nil (decimal_ne_nil zeros n)
    have hdigit : c.isDigit = true := isDigit_of_mem_decimal (hcs ▸ List.mem_cons_self)
    have hplus : c ≠ '+' := by
      rintro rfl
      cases hdigit
    have hminus : c ≠ '-' := by
      rintro rfl
      cases hdigit
    rw [hcs] at hfold ⊢
    rw [readInteger]
    · exact hfold
    all_goals simp [hplus, hminus]
  | plus zeros n =>
    obtain ⟨c, rest, hcs⟩ := List.exists_cons_of_ne_nil (decimal_ne_nil zeros n)
    rw [← foldlM_raise_decimal hgreatest zeros, hcs, readInteger]
    exact List.cons_ne_nil c rest
  | minus zeros =>
    rw [readInteger]
    · exact foldlM_lower_zeros hleast (zeros + 1)
    · simp

end

theorem readUInt64_of_spells {n : UInt64} (h : SpellsNumber n.toNat cs) :
    readUInt64 cs = .ok n := by
  have hgreatest : ((n.toNat : Nat) : Int) ≤ greatestInt128 := by
    have := n.toNat_lt
    unfold greatestInt128
    omega
  have hread : readInteger leastInt128 greatestInt128 cs = .ok (n.toNat : Int) :=
    readInteger_of_spells h (by decide) hgreatest
  have hnot : ¬ ((n.toNat : Int) < 0) := by omega
  have hwidth : Bounded.ofInt? UInt64 (n.toNat : Int) = some n := Bounded.ofInt?_toInt n
  unfold readUInt64
  simp only [List.isEmpty_eq_false_iff.mpr h.ne_nil, hread, if_neg hnot, hwidth]
  rfl

theorem readBool_of_spells {b : Bool} (h : SpellsBool b cs) : readBool cs = .ok b := by
  cases h <;> rfl

theorem readQuoted_of_spells {text : String} (h : SpellsText text cs) :
    readQuoted cs = .ok text := by
  cases h with
  | quoted hquote hline =>
    simp [readQuoted]

theorem map_readAs {α : Type} {read : List Char → Except ValueFault α} {a : α}
    (h : read cs = .ok a) (key : ConfigKey) (line : Nat) (make : α → Assignment) :
    (readAs key line read cs).map make = .ok (make a) := by
  rw [readAs, h]
  rfl

theorem readAssignment_of_spells {a : Assignment} (h : SpellsValue a cs) (line : Nat) :
    readAssignment line cs a.key = .ok a := by
  cases a with
  | minSizeMb mb => exact map_readAs (readUInt64_of_spells h) .minSizeMb line .minSizeMb
  | maxSizeMb mb => exact map_readAs (readUInt64_of_spells h) .maxSizeMb line .maxSizeMb
  | minSeeders seeders =>
    have hwide : seeders.toUInt64.toNat = seeders.toNat := seeders.toNat_toUInt64
    have hread : readUInt64 cs = .ok seeders.toUInt64 := readUInt64_of_spells (hwide ▸ h)
    have hnarrow : Bounded.ofInt? UInt32 (seeders.toUInt64.toNat : Int) = some seeders := by
      rw [hwide]
      exact Bounded.ofInt?_toInt seeders
    simp only [Assignment.key, readAssignment, readAs, hread, hnarrow]
  | retentionDays days =>
    exact map_readAs (readUInt64_of_spells h) .retentionDays line .retentionDays
  | minimumAgeMinutes minutes =>
    exact map_readAs (readUInt64_of_spells h) .minimumAgeMinutes line .minimumAgeMinutes
  | rejectEncrypted yes =>
    exact map_readAs (readBool_of_spells h) .rejectEncrypted line .rejectEncrypted
  | autoRedownloadFailed yes =>
    exact map_readAs (readBool_of_spells h) .autoRedownloadFailed line .autoRedownloadFailed
  | databasePath path =>
    exact map_readAs (readQuoted_of_spells h) .databasePath line .databasePath

end ReleaseWarden.Config
