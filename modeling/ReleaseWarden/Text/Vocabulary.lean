/-! Types that are written as one of a few fixed words. -/

set_option autoImplicit false

namespace ReleaseWarden.Text

/-- Each value of the type has a word of its own. -/
class Vocabulary (α : Type) where
  all : List α
  word : α → String
  mem_all : ∀ a, a ∈ all
  word_injective : ∀ a b, word a = word b → a = b

namespace Vocabulary

variable {α : Type} [Vocabulary α]

def ofWord? (α : Type) [Vocabulary α] (s : String) : Option α :=
  (all : List α).find? fun a => word a == s

@[simp] theorem ofWord?_word (a : α) : ofWord? α (word a) = some a := by
  unfold ofWord?
  cases h : (all : List α).find? fun b => word b == word a with
  | none => simpa using List.find?_eq_none.mp h a (mem_all a)
  | some b =>
    have hb := List.find?_some h
    simp only [beq_iff_eq] at hb
    rw [word_injective b a hb]

theorem word_of_ofWord? {s : String} {a : α} (h : ofWord? α s = some a) : word a = s := by
  have := List.find?_some h
  simpa using this

end Vocabulary

structure UnknownWord where
  kind : String
  text : String
  expected : List String := []
  deriving DecidableEq, Repr

namespace UnknownWord

def message (w : UnknownWord) : String :=
  "invalid " ++ w.kind ++ ": " ++ w.text ++
    (if w.expected.isEmpty then ""
      else " (expected " ++ String.intercalate " or " w.expected ++ ")")

end UnknownWord

end ReleaseWarden.Text
