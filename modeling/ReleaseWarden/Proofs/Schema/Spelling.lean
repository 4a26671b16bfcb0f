import Mathlib.Data.List.Forall2
import ReleaseWarden.Schema.Basic

/-! Spellings of a value. A value is written as one JSON value, and read from many: objects may hold
their fields in any order, leave some out and hold others besides. Main statement: whatever spells a
value is read as that value. -/

set_option autoImplicit false

namespace ReleaseWarden

open Text Schema

/-- How an object is spelled: as it is written, or with liberties. -/
inductive Spelling
  | strict
  | free
  deriving DecidableEq, Repr

/-- How the members of an object come from those of its known fields: strictly, they are the same;
freely, they stand in any order, and others of unknown names among them. -/
def Spelling.Arranges (names : List String) (known ms : List (String × Json)) : Spelling → Prop
  | strict => ms = known
  | free => ∃ others : List (String × Json),
      (∀ m ∈ others, m.1 ∉ names) ∧ ms.Perm (known ++ others)

mutual

/-- The JSON value spells `a`. The entries of a table may come in any order. -/
def Schema.Spells (how : Spelling) : {α : Type} → Schema α → α → Json → Prop
  | _, .boolean, b, j => j = .bool b
  | _, .text, s, j => j = Json.text s
  | _, @Schema.integer _ _, n, j => j = Json.integer (Bounded.toInt n)
  | _, @Schema.word _ _, a, j => j = Json.text (Vocabulary.word a)
  | _, .nullable _, none, j => j = .null
  | _, .nullable inner, some a, j => inner.Spells how a j
  | _, .list inner, as, j =>
    ∃ js, j = .array js ∧ List.Forall₂ (fun a j => inner.Spells how a j) as js
  | _, .table, t, j => ∃ es : List (String × String),
      es.Perm t.entries ∧ j = Json.record (es.map fun e => (e.1, Json.text e.2))
  | _, .record fields parts _, r, j => ∃ known ms,
      fields.Spells how (parts r) known ∧ how.Arranges fields.names known ms ∧ j = Json.record ms

/-- The members spell the fields, in their order. A free spelling may leave out a field that holds
what an object without it stands for. -/
def Fields.Spells (how : Spelling) : {τ : Type} → Fields τ → τ → List (String × Json) → Prop
  | _, .done, _, ms => ms = []
  | _, .field name schema absence rest, (a, r), ms =>
    (how = .free ∧ absence.inObject = some a ∧ rest.Spells how r ms) ∨
      ∃ j ms', ms = (name, j) :: ms' ∧ schema.Spells how a j ∧ rest.Spells how r ms'

end

/-- Null spells no value but the missing one. -/
def Schema.isNullable : {α : Type} → Schema α → Bool
  | _, .nullable _ => true
  | _, _ => false

mutual

/-- Values can be told from what is written of them: a record is built from its own parts, its
fields have different names, and what may be missing is no longer missing where it is there. -/
def Schema.Faithful : {α : Type} → Schema α → Prop
  | _, .nullable inner => inner.isNullable = false ∧ inner.Faithful
  | _, .list inner => inner.Faithful
  | _, .record fields parts build =>
    (∀ r, build (parts r) = r) ∧ fields.names.Nodup ∧ fields.Faithful
  | _, _ => True

def Fields.Faithful : {τ : Type} → Fields τ → Prop
  | _, .done => True
  | _, .field _ schema _ rest => schema.Faithful ∧ rest.Faithful

end

namespace Fields.Spells

variable {α τ : Type} {name : String} {schema : Schema α} {absence : Absence α} {rest : Fields τ}
  {a : α} {r : τ} {ms : List (String × Json)}

theorem given {how : Spelling} {j : Json} (hj : schema.Spells how a j)
    (hrest : rest.Spells how r ms) :
    (Fields.field name schema absence rest).Spells how (a, r) ((name, j) :: ms) :=
  .inr ⟨j, ms, rfl, hj, hrest⟩

theorem leftOut (ha : absence.inObject = some a) (hrest : rest.Spells .free r ms) :
    (Fields.field name schema absence rest).Spells .free (a, r) ms :=
  .inl ⟨rfl, ha, hrest⟩

end Fields.Spells

theorem Spelling.arranges_self (how : Spelling) (names : List String)
    (ms : List (String × Json)) : how.Arranges names ms ms := by
  cases how with
  | strict => rfl
  | free => exact ⟨[], nofun, by rw [List.append_nil]⟩

mutual

theorem spells_encode (how : Spelling) : {α : Type} → (s : Schema α) → (a : α) →
    s.Spells how a (s.encode a)
  | _, .boolean, _ => rfl
  | _, .text, _ => rfl
  | _, @Schema.integer _ _, _ => rfl
  | _, @Schema.word _ _, _ => rfl
  | _, .nullable _, none => rfl
  | _, .nullable inner, some a => spells_encode how inner a
  | _, .list inner, as => by
    refine ⟨as.map inner.encode, rfl, List.forall₂_map_right_iff.mpr ?_⟩
    exact List.forall₂_same.mpr fun a _ => spells_encode how inner a
  | _, .table, t => ⟨t.entries, .refl _, rfl⟩
  | _, .record fields parts _, r =>
    ⟨_, _, fields_spell_encode how fields (parts r), how.arranges_self _ _, rfl⟩

theorem fields_spell_encode (how : Spelling) : {τ : Type} → (fields : Fields τ) → (r : τ) →
    fields.Spells how r (fields.encode r)
  | _, .done, _ => rfl
  | _, .field _ schema _ rest, (a, r) =>
    .given (spells_encode how schema a) (fields_spell_encode how rest r)

end

/-! Members by their names. -/

variable {name : String} {ms ms' : List (Option String × Json)}

theorem onlyMember_perm (h : ms.Perm ms') : onlyMember name ms = onlyMember name ms' := by
  unfold onlyMember
  have hfilter := h.filter fun m => m.1 == some name
  generalize ms.filter _ = found at hfilter
  generalize ms'.filter _ = found' at hfilter
  cases found with
  | nil => rw [hfilter.nil_eq]
  | cons m found =>
    cases found with
    | nil => rw [List.perm_singleton.mp hfilter.symm]
    | cons m' found =>
      have hlength := hfilter.length_eq
      match found', hlength with
      | _ :: _ :: _, _ => rfl

theorem filter_eq_nil_of_ne (h : ∀ m ∈ ms, m.1 ≠ some name) :
    ms.filter (fun m => m.1 == some name) = [] := by
  apply List.filter_eq_nil_iff.mpr
  intro m hm
  simpa using h m hm

theorem onlyMember_of_ne (h : ∀ m ∈ ms, m.1 ≠ some name) : onlyMember name ms = .ok none := by
  rw [onlyMember, filter_eq_nil_of_ne h]

theorem onlyMember_append_of_ne (h : ∀ m ∈ ms', m.1 ≠ some name) :
    onlyMember name (ms ++ ms') = onlyMember name ms := by
  rw [onlyMember, List.filter_append, filter_eq_nil_of_ne h, List.append_nil, onlyMember]

theorem onlyMember_cons_of_ne {m : Option String × Json} (h : m.1 ≠ some name) :
    onlyMember name (m :: ms) = onlyMember name ms := by
  rw [onlyMember, List.filter_cons_of_neg (by simpa using h), onlyMember]

theorem onlyMember_cons_self {j : Json} (h : ∀ m ∈ ms, m.1 ≠ some name) :
    onlyMember name ((some name, j) :: ms) = .ok (some j) := by
  rw [onlyMember, List.filter_cons_of_pos (by simp), filter_eq_nil_of_ne h]

/-! Reading what is spelled. -/

theorem mapM_decodeEntry (es : List (String × String)) :
    ((es.map fun e => (e.1, Json.text e.2)).map fun m => (some m.1, m.2)).mapM decodeEntry =
      some es := by
  induction es with
  | nil => rfl
  | cons e es ih =>
    rw [List.map_cons, List.map_cons, List.mapM_cons, ih]
    rfl

theorem decode_table_of_perm {t : Table} {es : List (String × String)} (h : es.Perm t.entries) :
    Schema.table.decode (Json.record (es.map fun e => (e.1, Json.text e.2))) = some t := by
  simp only [Schema.decode, Json.record, mapM_decodeEntry, Option.map_some, Table.ofList_of_perm h]

variable {how : Spelling}

theorem ne_null_of_spells {α : Type} {s : Schema α} {a : α} {j : Json}
    (hs : s.isNullable = false) (h : s.Spells how a j) : j ≠ .null := by
  cases s with
  | boolean => obtain rfl : j = .bool a := h; exact nofun
  | text => obtain rfl : j = Json.text a := h; exact nofun
  | integer => obtain rfl := h; exact nofun
  | word => obtain rfl := h; exact nofun
  | nullable inner => cases hs
  | list inner => obtain ⟨js, rfl, _⟩ := h; exact nofun
  | table => obtain ⟨es, _, rfl⟩ := h; exact nofun
  | record fields parts build => obtain ⟨known, ms, _, _, rfl⟩ := h; exact nofun

theorem decode_nullable {α : Type} (inner : Schema α) {j : Json} (h : j ≠ .null) :
    (Schema.nullable inner).decode j = (inner.decode j).map some := by
  cases j with
  | null => exact absurd rfl h
  | _ => rfl

theorem mem_names_of_spells : {τ : Type} → (fields : Fields τ) → (r : τ) →
    (known : List (String × Json)) → fields.Spells how r known → ∀ m ∈ known, m.1 ∈ fields.names
  | _, .done, _, known, h => by
    obtain rfl : known = [] := h
    exact nofun
  | _, .field name schema absence rest, (a, r), known, h => by
    rcases h with ⟨_, _, hrest⟩ | ⟨j, known, rfl, _, hrest⟩
    · intro m hm
      exact List.mem_cons_of_mem _ (mem_names_of_spells rest r known hrest m hm)
    · refine List.forall_mem_cons.mpr ⟨List.mem_cons_self, fun m hm => ?_⟩
      exact List.mem_cons_of_mem _ (mem_names_of_spells rest r known hrest m hm)

theorem ne_some_of_spells {τ : Type} {fields : Fields τ} {r : τ} {known : List (String × Json)}
    (hname : name ∉ fields.names) (h : fields.Spells how r known) :
    ∀ m ∈ known.map fun m => (some m.1, m.2), m.1 ≠ some name := by
  intro m hm heq
  obtain ⟨field, hfield, rfl⟩ := List.mem_map.mp hm
  exact hname (Option.some.inj heq ▸ mem_names_of_spells fields r known h field hfield)

theorem onlyMember_of_arranges {names : List String} {known ms : List (String × Json)}
    (h : how.Arranges names known ms) (hname : name ∈ names) :
    onlyMember name (ms.map fun m => (some m.1, m.2)) =
      onlyMember name (known.map fun m => (some m.1, m.2)) := by
  cases how with
  | strict =>
    obtain rfl : ms = known := h
    rfl
  | free =>
    obtain ⟨others, hothers, hperm⟩ := h
    rw [onlyMember_perm (hperm.map _), List.map_append, onlyMember_append_of_ne]
    intro m hm
    obtain ⟨other, hother, rfl⟩ := List.mem_map.mp hm
    intro heq
    exact hothers other hother (Option.some.inj heq ▸ hname)

theorem mapM_of_forall₂ {α β : Type} {f : β → Option α} {R : α → β → Prop}
    (hf : ∀ a b, R a b → f b = some a) {as : List α} {bs : List β} (h : List.Forall₂ R as bs) :
    bs.mapM f = some as := by
  induction h with
  | nil => rfl
  | cons hab _ ih =>
    rw [List.mapM_cons, hf _ _ hab, ih]
    rfl

mutual

/-- Whatever spells a value is read as that value. -/
theorem decode_of_spells : {α : Type} → (s : Schema α) → s.Faithful → (a : α) → (j : Json) →
    s.Spells how a j → s.decode j = some a
  | _, .boolean, _, b, j, h => by
    obtain rfl : j = .bool b := h
    rfl
  | _, .text, _, t, j, h => by
    obtain rfl : j = Json.text t := h
    rfl
  | _, @Schema.integer α _, _, n, j, h => by
    obtain rfl : j = Json.integer (Bounded.toInt n) := h
    show (Number.ofInt (Bounded.toInt n)).toInt?.bind (Bounded.ofInt? α) = some n
    rw [Number.toInt?_ofInt, Option.bind_some, Bounded.ofInt?_toInt]
  | _, @Schema.word α _, _, a, j, h => by
    obtain rfl : j = Json.text (Vocabulary.word a) := h
    exact Vocabulary.ofWord?_word a
  | _, .nullable inner, _, none, j, h => by
    obtain rfl : j = .null := h
    rfl
  | _, .nullable inner, hs, some a, j, h => by
    have hne := ne_null_of_spells hs.1 h
    rw [decode_nullable inner hne, decode_of_spells inner hs.2 a j h, Option.map_some]
  | _, .list inner, hs, as, j, h => by
    obtain ⟨js, rfl, hitems⟩ := h
    exact mapM_of_forall₂ (decode_of_spells inner hs) hitems
  | _, .table, _, t, j, h => by
    obtain ⟨es, hperm, rfl⟩ := h
    exact decode_table_of_perm hperm
  | _, .record fields parts build, hs, r, j, h => by
    obtain ⟨hbuild, hnames, hfaithful⟩ := hs
    obtain ⟨known, ms, hfields, hms, rfl⟩ := h
    have hread := decodeObject_of_spells fields hfaithful hnames (parts r) known hfields
      (ms.map fun m => (some m.1, m.2)) fun name hname => onlyMember_of_arranges hms hname
    have hall : (ms.map fun m => (some m.1, m.2)).all (fun m => m.1.isSome) = true := by simp
    rw [Json.record, Schema.decode, if_pos hall, hread, Option.map_some, hbuild]

theorem decodeObject_of_spells : {τ : Type} → (fields : Fields τ) → fields.Faithful →
    fields.names.Nodup → (r : τ) → (known : List (String × Json)) → fields.Spells how r known →
    (ms : List (Option String × Json)) → (∀ name ∈ fields.names,
      onlyMember name ms = onlyMember name (known.map fun m => (some m.1, m.2))) →
    fields.decodeObject ms = some r
  | _, .done, _, _, _, _, _, _, _ => rfl
  | _, .field name schema absence rest, hfields, hnames, (a, r), known, h, ms, hms => by
    obtain ⟨hschema, hfaithful⟩ := hfields
    obtain ⟨hname, hnames⟩ := List.nodup_cons.mp hnames
    obtain ⟨hown, hms⟩ := List.forall_mem_cons.mp hms
    rcases h with ⟨_, habsent, hrest⟩ | ⟨j, known, rfl, hj, hrest⟩
    · -- Left out: no member of the other fields bears its name, so the stand-in is taken.
      have hread := decodeObject_of_spells rest hfaithful hnames r known hrest ms hms
      rw [onlyMember_of_ne (ne_some_of_spells hname hrest)] at hown
      simp only [Fields.decodeObject, hown, habsent, hread]
    · have hrest_ms : ∀ name' ∈ rest.names, onlyMember name' ms =
          onlyMember name' (known.map fun m => (some m.1, m.2)) := by
        intro name' hname'
        have hne : some name ≠ some name' := by
          rintro ⟨⟩
          exact hname hname'
        rw [hms name' hname', List.map_cons, onlyMember_cons_of_ne hne]
      have hread := decodeObject_of_spells rest hfaithful hnames r known hrest ms hrest_ms
      rw [List.map_cons, onlyMember_cons_self (ne_some_of_spells hname hrest)] at hown
      simp only [Fields.decodeObject, hown, decode_of_spells schema hschema a j hj, hread]

end

end ReleaseWarden
