import ReleaseWarden.Json.Number

/-! JSON values. A string is the text that it denotes, or `none` when its escapes leave a surrogate
unpaired and no text answers to it. -/

set_option autoImplicit false

namespace ReleaseWarden

/-- A JSON value. An object keeps its members in order, repeated names included. -/
inductive Json
  | null
  | bool (b : Bool)
  | number (n : Number)
  | string (text : Option String)
  | array (items : List Json)
  | object (members : List (Option String × Json))
  deriving Repr, Inhabited

namespace Json

def text (s : String) : Json := .string (some s)

def integer (n : Int) : Json := .number (.ofInt n)

def record (members : List (String × Json)) : Json :=
  .object (members.map fun m => (some m.1, m.2))

def optional {α : Type} (f : α → Json) : Option α → Json
  | none => .null
  | some a => f a

/-- The member of that name, the last one if the name is repeated. -/
def member? (name : String) : Json → Option Json
  | .object ms => (ms.reverse.find? fun m => m.1 == some name).map Prod.snd
  | _ => none

theorem member?_record_append {name : String} {front back : List (String × Json)}
    (h : ∀ m ∈ back, m.1 ≠ name) :
    (record (front ++ back)).member? name = (record front).member? name := by
  have hback : ((back.map fun m => (some m.1, m.2)).reverse.find?
      fun m => m.1 == some name) = none := by
    apply List.find?_eq_none.mpr
    intro m hm heq
    obtain ⟨n, hn, rfl⟩ := List.mem_map.mp (List.mem_reverse.mp hm)
    exact h n hn (Option.some.inj (beq_iff_eq.mp heq))
  simp only [record, member?, List.map_append, List.reverse_append, List.find?_append, hback,
    Option.none_or]

mutual

/-- Arrays and objects nest at most `depth` deep, every string denotes a text and every number is
finite. -/
def fits : Nat → Json → Bool
  | _, .null => true
  | _, .bool _ => true
  | _, .number n => n.isFinite
  | _, .string t => t.isSome
  | 0, .array _ => false
  | 0, .object _ => false
  | depth + 1, .array js => itemsFit depth js
  | depth + 1, .object ms => membersFit depth ms

def itemsFit : Nat → List Json → Bool
  | _, [] => true
  | depth, j :: js => fits depth j && itemsFit depth js

def membersFit : Nat → List (Option String × Json) → Bool
  | _, [] => true
  | depth, (name, j) :: ms => name.isSome && fits depth j && membersFit depth ms

end

end Json

end ReleaseWarden
