import ReleaseWarden.Proofs.Schema.RoundTrip

/-! What readers of records tolerate. They read every free spelling of a record as that record, and
nothing from a value in which an object lacks a field that has no stand-in, or repeats one. -/

set_option autoImplicit false

namespace ReleaseWarden

/-- The fields that an object may not leave out. -/
def Fields.needed : {τ : Type} → Fields τ → List String
  | _, .done => []
  | _, .field name _ absence rest =>
    if absence.inObject.isNone then name :: rest.needed else rest.needed

mutual

/-- Somewhere in the value, an object that stands for a record lacks a needed field or repeats one
of its fields. -/
def Schema.Flawed : {α : Type} → Schema α → Json → Prop
  | _, .nullable inner, j => j ≠ .null ∧ inner.Flawed j
  | _, .list inner, j => ∃ js, j = .array js ∧ ∃ item ∈ js, inner.Flawed item
  | _, .record fields _ _, j => ∃ ms, j = .object ms ∧
      ((∃ name ∈ fields.needed, ∀ m ∈ ms, m.1 ≠ some name) ∨
        (∃ name ∈ fields.names, 1 < (ms.map Prod.fst).count (some name)) ∨
        fields.FlawedWithin ms)
  | _, _, _ => False

/-- The value of a field is flawed. -/
def Fields.FlawedWithin : {τ : Type} → Fields τ → List (Option String × Json) → Prop
  | _, .done, _ => False
  | _, .field name schema _ rest, ms =>
    (∃ j, (some name, j) ∈ ms ∧ schema.Flawed j) ∨ rest.FlawedWithin ms

end

variable {name : String} {ms : List (Option String × Json)}

theorem onlyMember_of_repeated (h : 1 < (ms.map Prod.fst).count (some name)) :
    onlyMember name ms = .error () := by
  have hlength : 1 < (ms.filter fun m => m.1 == some name).length := by
    rw [List.count, List.countP_map, List.countP_eq_length_filter] at h
    exact h
  unfold onlyMember
  generalize ms.filter _ = found at hlength
  match found, hlength with
  | _ :: _ :: _, _ => rfl

theorem onlyMember_of_mem {j : Json} (h : (some name, j) ∈ ms) :
    onlyMember name ms = .error () ∨ onlyMember name ms = .ok (some j) := by
  have hfound : (some name, j) ∈ ms.filter fun m => m.1 == some name :=
    List.mem_filter.mpr ⟨h, beq_self_eq_true _⟩
  unfold onlyMember
  generalize ms.filter _ = found at hfound
  match found, hfound with
  | [m], hfound =>
    obtain rfl := List.mem_singleton.mp hfound
    exact .inr rfl
  | _ :: _ :: _, _ => exact .inl rfl

namespace Fields

variable {α τ : Type} {schema : Schema α} {absence : Absence α} {rest : Fields τ}

theorem decodeObject_of_rest (h : rest.decodeObject ms = none) :
    (Fields.field name schema absence rest).decodeObject ms = none := by
  simp only [decodeObject, h]
  cases onlyMember name ms with
  | error e => rfl
  | ok found =>
    cases found with
    | none =>
      dsimp only
      cases absence.inObject <;> rfl
    | some j =>
      dsimp only
      cases schema.decode j <;> rfl

theorem decodeObject_of_missing : {τ : Type} → (fields : Fields τ) → name ∈ fields.needed →
    (∀ m ∈ ms, m.1 ≠ some name) → fields.decodeObject ms = none
  | _, .done, hname, _ => nomatch hname
  | _, .field own schema absence rest, hname, hms => by
    rw [needed] at hname
    split at hname
    · rename_i habsence
      rcases List.mem_cons.mp hname with rfl | hname
      · simp only [decodeObject, onlyMember_of_ne hms, Option.isNone_iff_eq_none.mp habsence]
      · exact decodeObject_of_rest (decodeObject_of_missing rest hname hms)
    · exact decodeObject_of_rest (decodeObject_of_missing rest hname hms)

theorem decodeObject_of_repeated : {τ : Type} → (fields : Fields τ) → name ∈ fields.names →
    1 < (ms.map Prod.fst).count (some name) → fields.decodeObject ms = none
  | _, .done, hname, _ => nomatch hname
  | _, .field own schema absence rest, hname, hms => by
    rcases List.mem_cons.mp hname with rfl | hname
    · simp only [decodeObject, onlyMember_of_repeated hms]
    · exact decodeObject_of_rest (decodeObject_of_repeated rest hname hms)

end Fields

theorem mapM_eq_none_of_mem {α β : Type} {f : α → Option β} {a : α} {as : List α} (ha : a ∈ as)
    (h : f a = none) : as.mapM f = none := by
  induction as with
  | nil => cases ha
  | cons b as ih =>
    rw [List.mapM_cons]
    rcases List.mem_cons.mp ha with rfl | ha
    · rw [h]
      rfl
    · rw [ih ha]
      cases f b <;> rfl

mutual

/-- Nothing is read from a flawed value. -/
theorem decode_of_flawed : {α : Type} → (s : Schema α) → (j : Json) → s.Flawed j →
    s.decode j = none
  | _, .boolean, _, h => h.elim
  | _, .text, _, h => h.elim
  | _, @Schema.integer _ _, _, h => h.elim
  | _, @Schema.word _ _, _, h => h.elim
  | _, .table, _, h => h.elim
  | _, .nullable inner, j, h => by
    obtain ⟨hnull, h⟩ := h
    rw [decode_nullable inner hnull, decode_of_flawed inner j h, Option.map_none]
  | _, .list inner, j, h => by
    obtain ⟨js, rfl, item, hitem, h⟩ := h
    exact mapM_eq_none_of_mem hitem (decode_of_flawed inner item h)
  | _, .record fields parts build, j, h => by
    obtain ⟨ms, rfl, h⟩ := h
    have hnone : fields.decodeObject ms = none := by
      rcases h with ⟨name, hname, hms⟩ | ⟨name, hname, hms⟩ | h
      · exact fields.decodeObject_of_missing hname hms
      · exact fields.decodeObject_of_repeated hname hms
      · exact decodeObject_of_flawedWithin fields ms h
    rw [Schema.decode, hnone]
    split <;> rfl

theorem decodeObject_of_flawedWithin : {τ : Type} → (fields : Fields τ) →
    (ms : List (Option String × Json)) → fields.FlawedWithin ms → fields.decodeObject ms = none
  | _, .done, _, h => h.elim
  | _, .field name schema absence rest, ms, h => by
    rcases h with ⟨j, hj, hflawed⟩ | hrest
    · have hnone := decode_of_flawed schema j hflawed
      rcases onlyMember_of_mem hj with hfound | hfound
      · simp only [Fields.decodeObject, hfound]
      · simp only [Fields.decodeObject, hfound, hnone]
    · exact Fields.decodeObject_of_rest (decodeObject_of_flawedWithin rest ms hrest)

end

/-- Short and extended texts mean the same. What is written of a record is one of its free
spellings, and the record is read from every text that spells it freely, in its own object and in
those of the records within it: a field may be left out where it holds what stands in for it,
members may come in any order, and members of unknown names may hold anything. Nothing is read from
a text in which one of these objects lacks a field without a stand-in or repeats a field. -/
theorem RecordType.reads_free_spellings (t : RecordType) :
    (∀ v : t.Value, t.schema.Spells .free v (t.schema.encode v)) ∧
    ∀ j : Json, Json.parse j.render = some j ∧ ∀ text, Json.parse text = some j →
      (∀ v : t.Value, t.schema.Spells .free v j →
        (Json.parse text).bind t.schema.decode = some v) ∧
      (t.schema.Flawed j → (Json.parse text).bind t.schema.decode = none) := by
  refine ⟨spells_encode .free t.schema, fun j => ⟨Json.parse_render j, ?_⟩⟩
  intro text hparse
  rw [hparse]
  exact ⟨fun v hv => decode_of_spells t.schema t.schema_faithful v j hv,
    fun hflawed => decode_of_flawed t.schema j hflawed⟩

def heldFlac : LibraryItem where
  artistId := 7
  albumId := 40
  grade := ⟨⟨13, "FLAC"⟩, {}⟩

/-- Revision and tags are left out, the fields come last first, and between them stand a number
beyond all bounds and a string that denotes no text. -/
def shortFlac (grade : List (String × Json)) : Json := Json.record
  [("size", .number ⟨false, 1, [], some 999⟩),
    ("quality", Json.record (grade ++ [("quality", Json.record
      [("note", .string none), ("name", Json.text "FLAC"), ("id", Json.integer 13)])])),
    ("album_id", Json.integer 40), ("artist_id", Json.integer 7)]

/-- The short text is read, and with a second tier in the grade it is not. -/
theorem shortFlac_read :
    LibraryItem.schema.Spells .free heldFlac (shortFlac []) ∧
    (Json.parse (shortFlac []).render).bind LibraryItem.schema.decode = some heldFlac ∧
    (Json.parse (shortFlac [("quality", .null)]).render).bind LibraryItem.schema.decode = none := by
  have hquality : Quality.schema.Spells .free ⟨13, "FLAC"⟩ (Json.record
      [("note", .string none), ("name", Json.text "FLAC"), ("id", Json.integer 13)]) :=
    ⟨_, _, .given rfl <| .given rfl rfl,
      ⟨[("note", .string none)], List.forall_mem_singleton.mpr (by decide),
        List.reverse_perm [_, _, _]⟩, rfl⟩
  have hgrade : Grade.schema.Spells .free ⟨⟨13, "FLAC"⟩, {}⟩ _ :=
    ⟨_, _, .given hquality <| .leftOut rfl rfl, Spelling.free.arranges_self _ _, rfl⟩
  have hspells : LibraryItem.schema.Spells .free heldFlac (shortFlac []) :=
    ⟨_, _, .given rfl <| .given rfl <| .given hgrade <| .leftOut rfl rfl,
      ⟨[("size", .number ⟨false, 1, [], some 999⟩)], List.forall_mem_singleton.mpr (by decide),
        List.reverse_perm [_, _, _, _]⟩, rfl⟩
  have hflawed : LibraryItem.schema.Flawed (shortFlac [("quality", .null)]) := by
    refine ⟨_, rfl, .inr (.inr (.inr (.inr (.inl ⟨_, .tail _ (.head _), _, rfl, ?_⟩))))⟩
    exact .inr (.inl ⟨"quality", by decide, by decide⟩)
  obtain ⟨_, hread⟩ := RecordType.reads_free_spellings .libraryItem
  obtain ⟨hshort, hread_short⟩ := hread (shortFlac [])
  obtain ⟨hrepeated, hread_repeated⟩ := hread (shortFlac [("quality", .null)])
  exact ⟨hspells, (hread_short _ hshort).1 heldFlac hspells,
    (hread_repeated _ hrepeated).2 hflawed⟩

end ReleaseWarden
