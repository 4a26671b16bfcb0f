/-! Digits: the values that ASCII characters have in decimal and in hexadecimal numbers. -/

set_option autoImplicit false

namespace ReleaseWarden.Text

def digit? (c : Char) : Option Nat :=
  if '0' ≤ c ∧ c ≤ '9' then some (c.toNat - '0'.toNat) else none

def hexDigit? (c : Char) : Option Nat :=
  if '0' ≤ c ∧ c ≤ '9' then some (c.toNat - '0'.toNat)
  else if 'a' ≤ c ∧ c ≤ 'f' then some (c.toNat - 'a'.toNat + 10)
  else if 'A' ≤ c ∧ c ≤ 'F' then some (c.toNat - 'A'.toNat + 10)
  else none

def hexChar (n : Nat) : Char := Nat.digitChar n

theorem digit?_digitChar {n : Nat} (h : n < 10) : digit? (Nat.digitChar n) = some n := by
  have : ∀ k < 10, digit? (Nat.digitChar k) = some k := by decide
  exact this n h

theorem digit?_eq_some_iff {c : Char} {d : Nat} :
    digit? c = some d ↔ d < 10 ∧ c = Nat.digitChar d := by
  constructor
  · intro h
    unfold digit? at h
    split at h
    · rename_i hbounds
      have hlow : 48 ≤ c.toNat := hbounds.1
      have hhigh : c.toNat ≤ 57 := hbounds.2
      cases h
      have hlt : c.toNat - '0'.toNat < 10 := by
        change c.toNat - 48 < 10
        omega
      refine ⟨hlt, Char.toNat_inj.mp ?_⟩
      rw [Nat.toNat_digitChar_of_lt_ten hlt]
      change c.toNat = 48 + (c.toNat - 48)
      omega
    · cases h
  · rintro ⟨hd, rfl⟩
    exact digit?_digitChar hd

theorem hexDigit?_hexChar {n : Nat} (h : n < 16) : hexDigit? (hexChar n) = some n := by
  have : ∀ k < 16, hexDigit? (hexChar k) = some k := by decide
  exact this n h

end ReleaseWarden.Text
