import ReleaseWarden.Json.Basic
import ReleaseWarden.Schema.Bounded
import ReleaseWarden.Text.Table
import ReleaseWarden.Text.Vocabulary

/-! How values are laid out as JSON. A schema describes a type once; `encode` and `decode` both
follow it. A record is written as an object with all its fields, and read from such an object,
with fields in any order and unknown ones passed over, or from the array of its fields. -/

set_option autoImplicit false

namespace ReleaseWarden

open Text Schema

/-- What stands for a field that is left out: of an object, or at the end of an array. -/
structure Absence (α : Type) where
  inObject : Option α
  inArray : Option α

namespace Absence

variable {α : Type}

def forbidden : Absence α := ⟨none, none⟩

def standIn (a : α) : Absence α := ⟨some a, some a⟩

def objectOnly (a : α) : Absence α := ⟨some a, none⟩

end Absence

mutual

/-- The JSON layout of a type. -/
inductive Schema : Type → Type 1
  | boolean : Schema Bool
  | text : Schema String
  | integer {α : Type} [Bounded α] : Schema α
  | word {α : Type} [Vocabulary α] : Schema α
  | nullable {α : Type} (inner : Schema α) : Schema (Option α)
  | list {α : Type} (inner : Schema α) : Schema (List α)
  | table : Schema Table
  | record {σ τ : Type} (fields : Fields τ) (parts : σ → τ) (build : τ → σ) : Schema σ

/-- The fields of a record, in order, as nested pairs. -/
inductive Fields : Type → Type 1
  | done : Fields Unit
  | field {α τ : Type} (name : String) (schema : Schema α) (absence : Absence α)
      (rest : Fields τ) : Fields (α × τ)

end

namespace Fields

variable {α τ : Type}

def required (name : String) (schema : Schema α) (rest : Fields τ) : Fields (α × τ) :=
  .field name schema .forbidden rest

def defaulted (name : String) (schema : Schema α) (value : α) (rest : Fields τ) :
    Fields (α × τ) :=
  .field name schema (.standIn value) rest

/-- A nullable field that an object may leave out and an array may not. -/
def nullable (name : String) (schema : Schema α) (rest : Fields τ) : Fields (Option α × τ) :=
  .field name (.nullable schema) (.objectOnly none) rest

def names : {τ : Type} → Fields τ → List String
  | _, .done => []
  | _, .field name _ _ rest => name :: rest.names

end Fields

mutual

def Schema.encode : {α : Type} → Schema α → α → Json
  | _, .boolean, b => .bool b
  | _, .text, s => Json.text s
  | _, @Schema.integer _ _, n => Json.integer (Bounded.toInt n)
  | _, @Schema.word _ _, a => Json.text (Vocabulary.word a)
  | _, .nullable _, none => .null
  | _, .nullable inner, some a => inner.encode a
  | _, .list inner, as => .array (as.map fun a => inner.encode a)
  | _, .table, t => Json.record (t.entries.map fun e => (e.1, Json.text e.2))
  | _, .record fields parts _, r => Json.record (fields.encode (parts r))

def Fields.encode : {τ : Type} → Fields τ → τ → List (String × Json)
  | _, .done, _ => []
  | _, .field name schema _ rest, (a, r) => (name, schema.encode a) :: rest.encode r

end

/-- A word is written as a string, or as the one name of an object over null. -/
def decodeWord (α : Type) [Vocabulary α] : Json → Option α
  | .string (some s) => Vocabulary.ofWord? α s
  | .object [(some s, .null)] => Vocabulary.ofWord? α s
  | _ => none

def decodeEntry : Option String × Json → Option (String × String)
  | (some key, .string (some value)) => some (key, value)
  | _ => none

/-- The only value of that name; two of them are a fault. -/
def onlyMember (name : String) (members : List (Option String × Json)) :
    Except Unit (Option Json) :=
  match members.filter fun m => m.1 == some name with
  | [] => .ok none
  | [m] => .ok (some m.2)
  | _ => .error ()

mutual

def Schema.decode : {α : Type} → Schema α → Json → Option α
  | _, .boolean, j =>
    match j with
    | .bool b => some b
    | _ => none
  | _, .text, j =>
    match j with
    | .string t => t
    | _ => none
  | _, @Schema.integer α _, j =>
    match j with
    | .number n => n.toInt?.bind (Bounded.ofInt? α)
    | _ => none
  | _, @Schema.word α _, j => decodeWord α j
  | _, .nullable inner, j =>
    match j with
    | .null => some none
    | j => (inner.decode j).map some
  | _, .list inner, j =>
    match j with
    | .array js => js.mapM fun j => inner.decode j
    | _ => none
  | _, .table, j =>
    match j with
    | .object ms => (ms.mapM decodeEntry).map Table.ofList
    | _ => none
  | _, .record fields _ build, j =>
    match j with
    | .object ms =>
      if ms.all fun m => m.1.isSome then (fields.decodeObject ms).map build else none
    | .array js => (fields.decodeArray js).map build
    | _ => none

def Fields.decodeObject : {τ : Type} → Fields τ → List (Option String × Json) → Option τ
  | _, .done, _ => some ()
  | _, .field name schema absence rest, ms =>
    match onlyMember name ms with
    | .error _ => none
    | .ok none =>
      match absence.inObject, rest.decodeObject ms with
      | some a, some r => some (a, r)
      | _, _ => none
    | .ok (some j) =>
      match schema.decode j, rest.decodeObject ms with
      | some a, some r => some (a, r)
      | _, _ => none

def Fields.decodeArray : {τ : Type} → Fields τ → List Json → Option τ
  | _, .done, js => if js.isEmpty then some () else none
  | _, .field _ schema absence rest, js =>
    match js with
    | [] =>
      match absence.inArray, rest.decodeArray [] with
      | some a, some r => some (a, r)
      | _, _ => none
    | j :: js =>
      match schema.decode j, rest.decodeArray js with
      | some a, some r => some (a, r)
      | _, _ => none

end

end ReleaseWarden
