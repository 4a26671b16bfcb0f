/-! Integers of a fixed width. -/

set_option autoImplicit false

namespace ReleaseWarden.Schema

/-- A type that holds exactly the integers from `least` to `greatest`. -/
class Bounded (α : Type) where
  least : Int
  greatest : Int
  toInt : α → Int
  ofInt : Int → α
  least_le : ∀ a, least ≤ toInt a
  le_greatest : ∀ a, toInt a ≤ greatest
  ofInt_toInt : ∀ a, ofInt (toInt a) = a
  toInt_ofInt : ∀ n, least ≤ n → n ≤ greatest → toInt (ofInt n) = n

namespace Bounded

def ofInt? (α : Type) [Bounded α] (n : Int) : Option α :=
  if least α ≤ n ∧ n ≤ greatest α then some (ofInt n) else none

@[simp] theorem ofInt?_toInt {α : Type} [Bounded α] (a : α) : ofInt? α (toInt a) = some a := by
  simp [ofInt?, least_le, le_greatest, ofInt_toInt]

theorem toInt_of_ofInt?_eq_some {α : Type} [Bounded α] {n : Int} {a : α}
    (h : ofInt? α n = some a) : toInt a = n := by
  unfold ofInt? at h
  split at h
  · rename_i hbounds
    cases h
    exact toInt_ofInt n hbounds.1 hbounds.2
  · cases h

end Bounded

instance : Bounded Int32 where
  least := -0x80000000
  greatest := 0x7fffffff
  toInt := Int32.toInt
  ofInt := Int32.ofInt
  least_le a := Int32.le_toInt a
  le_greatest a := Int.le_sub_one_of_lt (Int32.toInt_lt a)
  ofInt_toInt := Int32.ofInt_toInt
  toInt_ofInt _ h₁ h₂ := Int32.toInt_ofInt_of_le h₁ (Int.lt_of_le_sub_one h₂)

instance : Bounded Int64 where
  least := -0x8000000000000000
  greatest := 0x7fffffffffffffff
  toInt := Int64.toInt
  ofInt := Int64.ofInt
  least_le a := Int64.le_toInt a
  le_greatest a := Int.le_sub_one_of_lt (Int64.toInt_lt a)
  ofInt_toInt := Int64.ofInt_toInt
  toInt_ofInt _ h₁ h₂ := Int64.toInt_ofInt_of_le h₁ (Int.lt_of_le_sub_one h₂)

instance : Bounded UInt32 where
  least := 0
  greatest := 0xffffffff
  toInt a := a.toNat
  ofInt n := UInt32.ofNat n.toNat
  least_le a := by omega
  le_greatest a := by have := a.toNat_lt; omega
  ofInt_toInt a := by simp
  toInt_ofInt n h₁ h₂ := by
    have : n.toNat < 0x100000000 := by omega
    rw [UInt32.toNat_ofNat_of_lt' this]
    omega

instance : Bounded UInt64 where
  least := 0
  greatest := 0xffffffffffffffff
  toInt a := a.toNat
  ofInt n := UInt64.ofNat n.toNat
  least_le a := by omega
  le_greatest a := by have := a.toNat_lt; omega
  ofInt_toInt a := by simp
  toInt_ofInt n h₁ h₂ := by
    have : n.toNat < 0x10000000000000000 := by omega
    rw [UInt64.toNat_ofNat_of_lt' this]
    omega

end ReleaseWarden.Schema
