import ReleaseWarden.Json.Parser
import ReleaseWarden.Json.Printer

/-! Reading string literals that were written. Each character is read back from its escape, and the
literal without a text from the surrogate that stands for it. -/

set_option autoImplicit false

namespace ReleaseWarden.Json

open Text

theorem Piece.assemble_map_char (done cs : List Char) :
    assemble done (cs.map .char) = some (String.ofList (done.reverse ++ cs)) := by
  induction cs generalizing done with
  | nil => rw [List.map_nil, assemble, List.append_nil]
  | cons c cs ih =>
    rw [List.map_cons, assemble, ih]
    simp

theorem Piece.ofUnit_toNat {c : Char} (h : c.toNat < 0x20) : ofUnit c.toNat = .char c := by
  have hlow : ¬ (0xD800 ≤ c.toNat ∧ c.toNat < 0xE000) := by omega
  rw [ofUnit, if_neg hlow, Char.ofNat_toNat]

theorem unit?_hexChar {n : Nat} (h : n < 0x20) :
    unit? '0' '0' (hexChar (n / 16)) (hexChar (n % 16)) = some n := by
  have hzero : hexDigit? '0' = some 0 := by decide
  have hhigh := hexDigit?_hexChar (n := n / 16) (by omega)
  have hlow := hexDigit?_hexChar (n := n % 16) (by omega)
  simp only [unit?, hzero, hhigh, hlow, bind, Option.bind, pure]
  congr 1
  omega

/-- The characters that are written by a letter, each with its letter. -/
def letters : List (Char × Char) :=
  [('"', '"'), ('\\', '\\'), ('\x08', 'b'), ('\x0c', 'f'), ('\n', 'n'), ('\r', 'r'), ('\t', 't')]

theorem escape_of_mem_letters {c e : Char} (h : (c, e) ∈ letters) :
    escape c = ['\\', e] ∧ e ≠ 'u' ∧ unescape? e = some c := by
  simp only [letters, List.mem_cons, Prod.mk.injEq, List.not_mem_nil, or_false] at h
  rcases h with h | h | h | h | h | h | h <;> (obtain ⟨rfl, rfl⟩ := h; decide)

theorem escape_cases (c : Char) :
    (∃ e, (c, e) ∈ letters) ∨
      (c.toNat < 0x20 ∧
        escape c = ['\\', 'u', '0', '0', hexChar (c.toNat / 16), hexChar (c.toNat % 16)]) ∨
      (c ≠ '"' ∧ c ≠ '\\' ∧ ¬ c.toNat < 0x20 ∧ escape c = [c]) := by
  by_cases hletter : ∃ e, (c, e) ∈ letters
  · exact .inl hletter
  · simp only [letters, List.mem_cons, Prod.mk.injEq, List.not_mem_nil, or_false, exists_or,
      exists_eq_right, not_or] at hletter
    obtain ⟨hquote, hback, hb, hf, hn, hr, ht⟩ := hletter
    by_cases hcontrol : c.toNat < 0x20
    · refine .inr (.inl ⟨hcontrol, ?_⟩)
      simp only [escape, hquote, hback, hb, hf, hn, hr, ht, hcontrol, if_false, if_true]
    · refine .inr (.inr ⟨hquote, hback, hcontrol, ?_⟩)
      simp only [escape, hquote, hback, hb, hf, hn, hr, ht, hcontrol, if_false]

theorem readString_letter {e c : Char} (done : List Piece) (cs : List Char) (hu : e ≠ 'u')
    (he : unescape? e = some c) :
    readString done ('\\' :: e :: cs) = readString (.char c :: done) cs := by
  rw [readString, he]
  intro _ _ _ _ _ heq _
  exact hu heq

theorem readString_plain {c : Char} (done : List Piece) (cs : List Char) (hquote : c ≠ '"')
    (hback : c ≠ '\\') (hcontrol : ¬ c.toNat < 0x20) :
    readString done (c :: cs) = readString (.char c :: done) cs := by
  rw [readString, if_neg hcontrol]
  · exact hquote
  · intro _ _ _ _ _ heq _
    exact hback heq
  · intro _ _ heq _
    exact hback heq

theorem readString_escape (done : List Piece) (c : Char) (cs : List Char) :
    readString done (escape c ++ cs) = readString (.char c :: done) cs := by
  rcases escape_cases c with ⟨e, hletter⟩ | ⟨hcontrol, h⟩ | ⟨hquote, hback, hcontrol, h⟩
  · obtain ⟨h, hu, he⟩ := escape_of_mem_letters hletter
    rw [h]
    exact readString_letter done cs hu he
  · rw [h]
    simp only [List.cons_append, List.nil_append]
    rw [readString, unit?_hexChar hcontrol]
    simp only [Piece.ofUnit_toNat hcontrol]
  · rw [h]
    exact readString_plain done cs hquote hback hcontrol

theorem readString_flatMap_escape (done : List Piece) (cs rest : List Char) :
    readString done (cs.flatMap escape ++ rest) =
      readString ((cs.map Piece.char).reverse ++ done) rest := by
  induction cs generalizing done with
  | nil => rfl
  | cons c cs ih =>
    rw [List.flatMap_cons, List.append_assoc, readString_escape, ih]
    simp

theorem readString_writeString (t : Option String) (rest : List Char) :
    ∃ cs, writeString t ++ rest = '"' :: cs ∧ readString [] cs = some (t, rest) := by
  cases t with
  | none => exact ⟨_, rfl, rfl⟩
  | some s =>
    refine ⟨s.toList.flatMap escape ++ '"' :: rest, by simp [writeString], ?_⟩
    rw [readString_flatMap_escape, readString, List.append_nil, List.reverse_reverse,
      Piece.assemble_map_char]
    simp

end ReleaseWarden.Json
