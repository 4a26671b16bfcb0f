import ReleaseWarden.Proofs.Json.Numbers
import ReleaseWarden.Proofs.Json.Strings

/-! Reading back what was written. Every value comes back, in whatever layout it was written: the
reader is never short of steps, and blanks between tokens make no difference. -/

set_option autoImplicit false

namespace ReleaseWarden.Json

open Text

namespace Layout

/-- The layout puts nothing but blanks between tokens. -/
structure IsBlank (l : Layout) : Prop where
  gap : ∀ depth, ∀ c ∈ l.gap depth, isSpace c = true
  afterColon : ∀ c ∈ l.afterColon, isSpace c = true

theorem isBlank_compact : compact.IsBlank := ⟨nofun, nofun⟩

theorem isBlank_indented : indented.IsBlank := by
  constructor
  · intro depth c hc
    rcases List.mem_cons.mp hc with rfl | hc
    · decide
    · obtain rfl := List.eq_of_mem_replicate hc
      decide
  · intro c hc
    obtain rfl := List.mem_singleton.mp hc
    decide

end Layout

variable {blanks cs rest : List Char} {c : Char} {fuel : Nat}

theorem skipSpace_blanks (h : ∀ c ∈ blanks, isSpace c = true) :
    skipSpace (blanks ++ cs) = skipSpace cs :=
  List.dropWhile_append_of_pos h

theorem skipSpace_cons (h : isSpace c = false) : skipSpace (c :: cs) = c :: cs := by
  rw [skipSpace, List.dropWhile_cons, h]
  rfl

theorem readValue_blanks (h : ∀ c ∈ blanks, isSpace c = true) :
    readValue fuel (blanks ++ cs) = readValue fuel cs := by
  cases fuel with
  | zero => rfl
  | succ fuel => rw [readValue, readValue, skipSpace_blanks h]

theorem readItems_blanks (h : ∀ c ∈ blanks, isSpace c = true) :
    readItems fuel (blanks ++ cs) = readItems fuel cs := by
  cases fuel with
  | zero => rfl
  | succ fuel => rw [readItems, readItems, readValue_blanks h]

theorem readMembers_blanks (h : ∀ c ∈ blanks, isSpace c = true) :
    readMembers fuel (blanks ++ cs) = readMembers fuel cs := by
  cases fuel with
  | zero => rfl
  | succ fuel => rw [readMembers, readMembers, skipSpace_blanks h]

theorem endsNumber_of_isSpace (h : isSpace c = true) : EndsNumber (c :: cs) := by
  intro d hd
  obtain rfl : c = d := Option.some.inj hd
  simp only [isSpace, Bool.or_eq_true, beq_iff_eq] at h
  rcases h with ((rfl | rfl) | rfl) | rfl <;> decide

theorem endsNumber_blanks (h : ∀ c ∈ blanks, isSpace c = true) (hcs : EndsNumber cs) :
    EndsNumber (blanks ++ cs) := by
  cases blanks with
  | nil => exact hcs
  | cons c blanks => exact endsNumber_of_isSpace (h c List.mem_cons_self)

/-! What one step of the reader does once the tokens ahead are known. -/

theorem readItems_last {j : Json} (h : readValue fuel cs = some (j, rest)) {after : List Char}
    (hclose : skipSpace rest = ']' :: after) : readItems (fuel + 1) cs = some ([j], after) := by
  rw [readItems, h]
  simp only [hclose]

theorem readItems_more {j : Json} {js : List Json} {after : List Char}
    (h : readValue fuel cs = some (j, ',' :: rest))
    (hmore : readItems fuel rest = some (js, after)) :
    readItems (fuel + 1) cs = some (j :: js, after) := by
  rw [readItems, h]
  simp only [skipSpace_cons (c := ',') (by decide), hmore, Option.map_some]

theorem readMembers_last {name : Option String} {j : Json} {after : List Char}
    (h : readValue fuel cs = some (j, rest)) (hclose : skipSpace rest = '}' :: after) :
    readMembers (fuel + 1) (writeString name ++ ':' :: cs) = some ([(name, j)], after) := by
  obtain ⟨text, htext, hread⟩ := readString_writeString name (':' :: cs)
  rw [readMembers, htext, skipSpace_cons (by decide)]
  simp only [hread, skipSpace_cons (c := ':') (by decide), h, hclose]

theorem readMembers_more {name : Option String} {j : Json} {ms : List (Option String × Json)}
    {after : List Char} (h : readValue fuel cs = some (j, ',' :: rest))
    (hmore : readMembers fuel rest = some (ms, after)) :
    readMembers (fuel + 1) (writeString name ++ ':' :: cs) = some ((name, j) :: ms, after) := by
  obtain ⟨text, htext, hread⟩ := readString_writeString name (':' :: cs)
  rw [readMembers, htext, skipSpace_cons (by decide)]
  simp only [hread, skipSpace_cons (c := ':') (by decide), h, skipSpace_cons (c := ',') (by decide),
    hmore, Option.map_some]

theorem readValue_string (t : Option String) :
    readValue (fuel + 1) (writeString t ++ rest) = some (.string t, rest) := by
  obtain ⟨text, htext, hread⟩ := readString_writeString t rest
  rw [readValue, htext, skipSpace_cons (by decide)]
  simp only [hread, Option.map_some]

theorem readValue_array {js : List Json} (hblanks : ∀ c ∈ blanks, isSpace c = true)
    (hc : isSpace c = false) (hopen : c ≠ ']') (h : readItems fuel (c :: cs) = some (js, rest)) :
    readValue (fuel + 1) ('[' :: (blanks ++ c :: cs)) = some (.array js, rest) := by
  rw [readValue, skipSpace_cons (by decide)]
  simp only [skipSpace_blanks hblanks, skipSpace_cons hc]
  split
  · rename_i heq
    exact absurd (List.cons.inj heq).1 hopen
  · rw [h, Option.map_some]

theorem readValue_object {ms : List (Option String × Json)}
    (hblanks : ∀ c ∈ blanks, isSpace c = true) (hc : isSpace c = false) (hopen : c ≠ '}')
    (h : readMembers fuel (c :: cs) = some (ms, rest)) :
    readValue (fuel + 1) ('{' :: (blanks ++ c :: cs)) = some (.object ms, rest) := by
  rw [readValue, skipSpace_cons (by decide)]
  simp only [skipSpace_blanks hblanks, skipSpace_cons hc]
  split
  · rename_i heq
    exact absurd (List.cons.inj heq).1 hopen
  · rw [h, Option.map_some]

theorem writeNumber_eq_cons (n : Number) :
    ∃ c cs, writeNumber n = c :: cs ∧ (c = '-' ∨ c.isDigit = true) := by
  obtain ⟨c, cs, hcons, hdigit⟩ := toDigits_eq_cons n.whole
  unfold writeNumber
  rw [hcons]
  cases n.negative with
  | true => exact ⟨_, _, rfl, .inl rfl⟩
  | false => exact ⟨_, _, rfl, .inr hdigit⟩

theorem ne_of_startsNumber {d : Char} (h : c = '-' ∨ c.isDigit = true)
    (hd : ¬ (d = '-' ∨ d.isDigit = true)) : c ≠ d := by
  rintro rfl
  exact hd h

theorem isSpace_of_startsNumber (h : c = '-' ∨ c.isDigit = true) : isSpace c = false := by
  simp only [isSpace, Bool.or_eq_false_iff, beq_eq_false_iff_ne]
  refine ⟨⟨⟨?_, ?_⟩, ?_⟩, ?_⟩ <;> exact ne_of_startsNumber h (by decide)

theorem readValue_number (n : Number) (h : EndsNumber rest) :
    readValue (fuel + 1) (writeNumber n ++ rest) = some (.number n, rest) := by
  obtain ⟨c, cs, hcons, hc⟩ := writeNumber_eq_cons n
  have hread := readNumber_writeNumber n h
  rw [hcons, List.cons_append] at hread ⊢
  rw [readValue, skipSpace_cons (isSpace_of_startsNumber hc)]
  have hne {d : Char} {ds : List Char} (hd : ¬ (d = '-' ∨ d.isDigit = true)) :
      c :: (cs ++ rest) ≠ d :: ds :=
    fun heq => ne_of_startsNumber hc hd (List.cons.inj heq).1
  split
  · rename_i heq
    exact absurd heq (hne (by decide))
  · rename_i heq
    exact absurd heq (hne (by decide))
  · rename_i heq
    exact absurd heq (hne (by decide))
  · rename_i heq
    exact absurd heq (hne (by decide))
  · rename_i heq
    exact absurd heq (hne (by decide))
  · rename_i heq
    exact absurd heq (hne (by decide))
  · rw [hread, Option.map_some]

theorem write_eq_cons (l : Layout) (depth : Nat) (j : Json) :
    ∃ c cs, write l depth j = c :: cs ∧ isSpace c = false ∧ c ≠ ']' := by
  cases j with
  | null => exact ⟨_, _, rfl, by decide, by decide⟩
  | bool b => cases b <;> exact ⟨_, _, rfl, by decide, by decide⟩
  | number n =>
    obtain ⟨c, cs, hcons, hc⟩ := writeNumber_eq_cons n
    rw [write, hcons]
    exact ⟨c, cs, rfl, isSpace_of_startsNumber hc, ne_of_startsNumber hc (by decide)⟩
  | string t => cases t <;> exact ⟨_, _, rfl, by decide, by decide⟩
  | array js => cases js <;> exact ⟨_, _, rfl, by decide, by decide⟩
  | object ms =>
    cases ms with
    | nil => exact ⟨_, _, rfl, by decide, by decide⟩
    | cons m ms => exact ⟨_, _, rfl, by decide, by decide⟩

variable {l : Layout}

theorem endsNumber_close (hl : l.IsBlank) {close : Char} (hclose : close = ']' ∨ close = '}')
    (outer : Nat) (rest : List Char) : EndsNumber (l.gap outer ++ close :: rest) := by
  apply endsNumber_blanks (hl.gap outer)
  intro c hc
  obtain rfl : close = c := Option.some.inj hc
  rcases hclose with rfl | rfl <;> decide

theorem endsNumber_comma (cs : List Char) : EndsNumber (',' :: cs) := by
  intro c hc
  obtain rfl : ',' = c := Option.some.inj hc
  decide

mutual

/-- One step for each character is enough. -/
theorem readValue_write (hl : l.IsBlank) : (j : Json) → (depth fuel : Nat) → (rest : List Char) →
    EndsNumber rest → (write l depth j).length ≤ fuel →
    readValue fuel (write l depth j ++ rest) = some (j, rest)
  | j, depth, 0, rest, _, hfuel => by
    obtain ⟨c, cs, hcons, _⟩ := write_eq_cons l depth j
    rw [hcons, List.length_cons] at hfuel
    omega
  | .null, _, fuel + 1, rest, _, _ => by rw [write]; rfl
  | .bool true, _, fuel + 1, rest, _, _ => by rw [write]; rfl
  | .bool false, _, fuel + 1, rest, _, _ => by rw [write]; rfl
  | .number n, _, fuel + 1, rest, hrest, _ => by rw [write]; exact readValue_number n hrest
  | .string t, _, fuel + 1, rest, _, _ => by rw [write]; exact readValue_string t
  | .array [], _, fuel + 1, rest, _, _ => by rw [write]; rfl
  | .object [], _, fuel + 1, rest, _, _ => by rw [write]; rfl
  | .array (j :: js), depth, fuel + 1, rest, _, hfuel => by
    have hlength :
        (write l (depth + 1) j).length + (writeItems l (depth + 1) js).length < fuel := by
      simp only [write, List.length_append, List.length_cons] at hfuel
      omega
    have hitems := readItems_write hl js j (depth + 1) depth fuel rest hlength
    obtain ⟨c, cs, hcons, hc, hopen⟩ := write_eq_cons l (depth + 1) j
    rw [hcons, List.cons_append] at hitems
    have harray := readValue_array (hl.gap (depth + 1)) hc hopen hitems
    simp only [write, List.append_assoc, List.cons_append, List.nil_append, hcons]
    exact harray
  | .object ((name, j) :: ms), depth, fuel + 1, rest, _, hfuel => by
    have hlength : (writeString name).length + (write l (depth + 1) j).length +
        (writeMembers l (depth + 1) ms).length < fuel := by
      simp only [write, List.length_append, List.length_cons] at hfuel
      omega
    have hmembers := readMembers_write hl ms name j (depth + 1) depth fuel rest hlength
    obtain ⟨text, htext, _⟩ := readString_writeString name (':' :: (l.afterColon ++
      (write l (depth + 1) j ++ (writeMembers l (depth + 1) ms ++ (l.gap depth ++ '}' :: rest)))))
    rw [htext] at hmembers
    have hobject := readValue_object (hl.gap (depth + 1)) (by decide) (by decide) hmembers
    simp only [write, List.append_assoc, List.cons_append, List.nil_append, htext]
    exact hobject
termination_by _ _ fuel => fuel

theorem readItems_write (hl : l.IsBlank) : (js : List Json) → (j : Json) →
    (inner outer fuel : Nat) → (rest : List Char) →
    (write l inner j).length + (writeItems l inner js).length < fuel →
    readItems fuel (write l inner j ++ (writeItems l inner js ++ (l.gap outer ++ ']' :: rest))) =
      some (j :: js, rest)
  | js, j, inner, outer, 0, rest, hfuel => absurd hfuel (Nat.not_lt_zero _)
  | [], j, inner, outer, fuel + 1, rest, hfuel => by
    have hfirst := readValue_write hl j inner fuel _ (endsNumber_close hl (.inl rfl) outer rest)
      (by omega)
    apply readItems_last hfirst
    rw [skipSpace_blanks (hl.gap outer), skipSpace_cons (by decide)]
  | k :: js, j, inner, outer, fuel + 1, rest, hfuel => by
    simp only [writeItems, List.cons_append, List.append_assoc, List.length_cons,
      List.length_append] at hfuel ⊢
    apply readItems_more (readValue_write hl j inner fuel _ (endsNumber_comma _) (by omega))
    rw [readItems_blanks (hl.gap inner)]
    exact readItems_write hl js k inner outer fuel rest (by omega)
termination_by _ _ _ _ fuel => fuel

theorem readMembers_write (hl : l.IsBlank) : (ms : List (Option String × Json)) →
    (name : Option String) → (j : Json) → (inner outer fuel : Nat) → (rest : List Char) →
    (writeString name).length + (write l inner j).length + (writeMembers l inner ms).length <
      fuel →
    readMembers fuel (writeString name ++ ':' :: (l.afterColon ++ (write l inner j ++
      (writeMembers l inner ms ++ (l.gap outer ++ '}' :: rest))))) = some ((name, j) :: ms, rest)
  | ms, name, j, inner, outer, 0, rest, hfuel => absurd hfuel (Nat.not_lt_zero _)
  | [], name, j, inner, outer, fuel + 1, rest, hfuel => by
    have hfirst := readValue_write hl j inner fuel _ (endsNumber_close hl (.inr rfl) outer rest)
      (by omega)
    apply readMembers_last ((readValue_blanks hl.afterColon).trans hfirst)
    rw [skipSpace_blanks (hl.gap outer), skipSpace_cons (by decide)]
  | (name', k) :: ms, name, j, inner, outer, fuel + 1, rest, hfuel => by
    simp only [writeMembers, List.cons_append, List.append_assoc, List.length_cons,
      List.length_append] at hfuel ⊢
    apply readMembers_more ((readValue_blanks hl.afterColon).trans
      (readValue_write hl j inner fuel _ (endsNumber_comma _) (by omega)))
    rw [readMembers_blanks (hl.gap inner)]
    exact readMembers_write hl ms name' k inner outer fuel rest (by omega)
termination_by _ _ _ _ _ fuel => fuel

end

theorem parse_ofList_write (hl : l.IsBlank) (j : Json) :
    parse (String.ofList (write l 0 j)) = some j := by
  have hread := readValue_write hl j 0 (2 * (write l 0 j).length + 2) [] nofun (by omega)
  rw [List.append_nil] at hread
  simp only [parse, String.toList_ofList, String.length_ofList, hread]
  rfl

theorem parse_render (j : Json) : parse j.render = some j :=
  parse_ofList_write Layout.isBlank_compact j

theorem parse_renderIndented (j : Json) : parse j.renderIndented = some j :=
  parse_ofList_write Layout.isBlank_indented j

end ReleaseWarden.Json
