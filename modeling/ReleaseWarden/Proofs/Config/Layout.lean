import ReleaseWarden.Proofs.Config.Values

/-! The layout of a configuration. A line holds an assignment, white space or a comment, in any
number and order; white space may surround each part of an assignment, and a comment may follow it.
Whatever the layout, what is read is what was written, and the last value of each key counts. -/

set_option autoImplicit false

namespace ReleaseWarden.Config

open Text Schema

/-- White space that does not end the line. -/
def IsGap (cs : List Char) : Prop := ∀ c ∈ cs, isBlank c = true ∧ c ≠ '\n'

inductive IsRemark : List Char → Prop
  | none : IsRemark []
  | comment {text : List Char} : '\n' ∉ text → IsRemark ('#' :: text)

/-- One line without its end, and what it assigns. -/
inductive WritesLine : Option Assignment → List Char → Prop
  | empty {gap remark : List Char} : IsGap gap → IsRemark remark → WritesLine none (gap ++ remark)
  | assignment {a : Assignment} {before afterKey beforeValue value after remark : List Char} :
      IsGap before → IsGap afterKey → IsGap beforeValue → SpellsValue a value → IsGap after →
      IsRemark remark →
      WritesLine (some a) (before ++ ((Vocabulary.word a.key).toList ++
        ((afterKey ++ '=' :: beforeValue) ++ value)) ++ after ++ remark)

/-- A text of lines, and what they assign in their order. The last one needs no end. -/
inductive Writes : List Assignment → List Char → Prop
  | last {a : Option Assignment} {line : List Char} : WritesLine a line → Writes a.toList line
  | line {a : Option Assignment} {as : List Assignment} {line ending text : List Char} :
      WritesLine a line → ending = ['\n'] ∨ ending = ['\r', '\n'] → Writes as text →
      Writes (a.toList ++ as) (line ++ (ending ++ text))

/-- No comment begins in the text, and no quote is left open. -/
def IsClosed (cs : List Char) : Prop :=
  ∀ rest, stripComment false (cs ++ rest) = cs ++ stripComment false rest

variable {a : Option Assignment} {as : List Assignment} {cs ds text : List Char}

theorem IsClosed.append (hc : IsClosed cs) (hd : IsClosed ds) : IsClosed (cs ++ ds) := by
  intro rest
  rw [List.append_assoc, hc, hd, List.append_assoc]

theorem isClosed_of_forall (h : ∀ c ∈ cs, c ≠ '#' ∧ c ≠ '"') : IsClosed cs := by
  intro rest
  induction cs with
  | nil => rfl
  | cons c cs ih =>
    obtain ⟨⟨hhash, hquote⟩, hcs⟩ := List.forall_mem_cons.mp h
    rw [List.cons_append, stripComment, if_neg fun heq => hhash heq.1, if_neg hquote, ih hcs,
      List.cons_append]

theorem stripComment_quoted (h : '"' ∉ cs) (rest : List Char) :
    stripComment true (cs ++ rest) = cs ++ stripComment true rest := by
  induction cs with
  | nil => rfl
  | cons c cs ih =>
    obtain ⟨hquote, hcs⟩ := not_or.mp (mt List.mem_cons.mpr h)
    have hnot : ¬ (c = '#' ∧ true = false) := fun heq => nomatch heq.2
    rw [List.cons_append, stripComment, if_neg hnot, if_neg (Ne.symm hquote), ih hcs,
      List.cons_append]

theorem isClosed_quoted (h : '"' ∉ cs) : IsClosed ('"' :: (cs ++ ['"'])) := by
  intro rest
  have hopen (ds : List Char) : stripComment false ('"' :: ds) = '"' :: stripComment true ds := rfl
  have hclose : stripComment true ('"' :: rest) = '"' :: stripComment false rest := rfl
  rw [List.cons_append, hopen, List.append_assoc, stripComment_quoted h, List.singleton_append,
    hclose, List.cons_append, List.append_assoc]
  rfl

theorem IsGap.isBlank (h : IsGap cs) : ∀ c ∈ cs, isBlank c = true := fun c hc => (h c hc).1

theorem IsGap.isClosed (h : IsGap cs) : IsClosed cs := by
  apply isClosed_of_forall
  intro c hc
  have hblank := (h c hc).1
  constructor
  · rintro rfl
    exact absurd hblank (by decide)
  · rintro rfl
    exact absurd hblank (by decide)

theorem stripComment_of_isRemark (h : IsRemark cs) : stripComment false cs = [] := by
  cases h <;> rfl

theorem stripComment_append_remark {remark : List Char} (hcs : IsClosed cs)
    (h : IsRemark remark) : stripComment false (cs ++ remark) = cs := by
  rw [hcs, stripComment_of_isRemark h, List.append_nil]

theorem trim_stripComment_return (quoted : Bool) (cs : List Char) :
    trim (stripComment quoted (cs ++ ['\r'])) = trim (stripComment quoted cs) := by
  have hcases : stripComment quoted (cs ++ ['\r']) = stripComment quoted cs ∨
      stripComment quoted (cs ++ ['\r']) = stripComment quoted cs ++ ['\r'] := by
    induction cs generalizing quoted with
    | nil => exact .inr rfl
    | cons c cs ih =>
      rw [List.cons_append, stripComment, stripComment]
      split
      · exact .inl rfl
      · rcases ih (if c = '"' then !quoted else quoted) with h | h
        · exact .inl (congrArg (c :: ·) h)
        · exact .inr (congrArg (c :: ·) h)
  rcases hcases with h | h
  · rw [h]
  · have hreturn : ∀ c ∈ ['\r'], isBlank c = true := List.forall_mem_singleton.mpr (by decide)
    rw [h, trim_append_blank hreturn]

theorem readLine_return (number : Nat) (cs : List Char) :
    readLine number (cs ++ ['\r']) = readLine number cs := by
  simp only [readLine, trim_stripComment_return]

theorem readLine_endLine (number : Nat) (cs : List Char) :
    readLine number (endLine cs.reverse) = readLine number cs := by
  unfold endLine
  split
  · rename_i front hfront
    rw [← cs.reverse_reverse, hfront, List.reverse_cons, readLine_return]
  · rw [cs.reverse_reverse]

theorem splitAssignment_append (h : '=' ∉ cs) (value : List Char) :
    splitAssignment (cs ++ '=' :: value) = some (cs, value) := by
  have hne : ∀ c ∈ cs, (c != '=') = true := by
    intro c hc
    have : c ≠ '=' := by
      rintro rfl
      exact h hc
    simpa using this
  rw [splitAssignment, List.dropWhile_append_of_pos hne, List.takeWhile_append_of_pos hne]
  simp

theorem isPlain_key (key : ConfigKey) : ∀ c ∈ (Vocabulary.word key).toList, IsPlain c := by
  apply isPlain_of_all
  cases key <;> decide

theorem key_ne_nil (key : ConfigKey) : (Vocabulary.word key).toList ≠ [] := by
  cases key <;> decide

theorem isBare_of_isPlain (hne : cs ≠ []) (h : ∀ c ∈ cs, IsPlain c) : IsBare cs :=
  .of_forall hne fun c hc => (h c hc).1

theorem isBare_key (key : ConfigKey) : IsBare (Vocabulary.word key).toList :=
  isBare_of_isPlain (key_ne_nil key) (isPlain_key key)

theorem isClosed_of_isPlain (h : ∀ c ∈ cs, IsPlain c) : IsClosed cs :=
  isClosed_of_forall fun c hc => ⟨(h c hc).2.1, (h c hc).2.2.1⟩

theorem newline_not_mem_of_isPlain (h : ∀ c ∈ cs, IsPlain c) : '\n' ∉ cs :=
  fun hmem => absurd (h _ hmem).1 (by decide)

theorem plain_or_quoted {a : Assignment} (h : SpellsValue a cs) :
    (cs ≠ [] ∧ ∀ c ∈ cs, IsPlain c) ∨ ∃ path, a = .databasePath path ∧ SpellsText path cs := by
  have hbool {b : Bool} (hb : SpellsBool b cs) : cs ≠ [] ∧ ∀ c ∈ cs, IsPlain c := by
    cases hb with
    | yes => exact ⟨List.cons_ne_nil _ _, isPlain_of_all (by decide)⟩
    | no => exact ⟨List.cons_ne_nil _ _, isPlain_of_all (by decide)⟩
  have hnumber {n : Nat} (hn : SpellsNumber n cs) : cs ≠ [] ∧ ∀ c ∈ cs, IsPlain c :=
    ⟨hn.ne_nil, hn.isPlain⟩
  cases a with
  | minSizeMb mb => exact .inl (hnumber h)
  | maxSizeMb mb => exact .inl (hnumber h)
  | minSeeders seeders => exact .inl (hnumber h)
  | retentionDays days => exact .inl (hnumber h)
  | minimumAgeMinutes minutes => exact .inl (hnumber h)
  | rejectEncrypted yes => exact .inl (hbool h)
  | autoRedownloadFailed yes => exact .inl (hbool h)
  | databasePath path => exact .inr ⟨path, rfl, h⟩

theorem layout_of_spells {a : Assignment} (h : SpellsValue a cs) :
    IsBare cs ∧ IsClosed cs ∧ '\n' ∉ cs := by
  rcases plain_or_quoted h with ⟨hne, hplain⟩ | ⟨path, _, hpath⟩
  · exact ⟨isBare_of_isPlain hne hplain, isClosed_of_isPlain hplain,
      newline_not_mem_of_isPlain hplain⟩
  · cases hpath with
    | quoted hquote hline =>
      have hends : IsBare ['"'] := .singleton (by decide)
      exact ⟨hends.append path.toList hends, isClosed_quoted hquote, by simpa using hline⟩

theorem IsGap.equals_not_mem (h : IsGap cs) : '=' ∉ cs :=
  fun hmem => absurd (h _ hmem).1 (by decide)

theorem IsGap.newline_not_mem (h : IsGap cs) : '\n' ∉ cs := fun hmem => (h _ hmem).2 rfl

theorem trim_stripComment {before after remark : List Char} (hbefore : IsGap before)
    (hbare : IsBare cs) (hclosed : IsClosed cs) (hafter : IsGap after) (hremark : IsRemark remark) :
    trim (stripComment false (before ++ cs ++ after ++ remark)) = cs := by
  have hstrip : stripComment false (before ++ cs ++ after ++ remark) = before ++ cs ++ after :=
    stripComment_append_remark ((hbefore.isClosed.append hclosed).append hafter.isClosed) hremark
  rw [hstrip, List.append_assoc]
  exact trim_around hbefore.isBlank hbare hafter.isBlank

section

variable {b : Assignment} {afterKey beforeValue value : List Char}

theorem isClosed_assignment (hafterKey : IsGap afterKey) (hbeforeValue : IsGap beforeValue)
    (hvalue : SpellsValue b value) :
    IsClosed ((Vocabulary.word b.key).toList ++ ((afterKey ++ '=' :: beforeValue) ++ value)) := by
  have hkey : IsClosed (Vocabulary.word b.key).toList := isClosed_of_isPlain (isPlain_key b.key)
  have hequals : IsClosed ['='] := isClosed_of_forall (List.forall_mem_singleton.mpr (by decide))
  have hmiddle := hafterKey.isClosed.append (hequals.append hbeforeValue.isClosed)
  exact hkey.append (hmiddle.append (layout_of_spells hvalue).2.1)

theorem splitAssignment_key (hafterKey : IsGap afterKey) (key : ConfigKey) :
    splitAssignment ((Vocabulary.word key).toList ++ ((afterKey ++ '=' :: beforeValue) ++ value)) =
      some ((Vocabulary.word key).toList ++ afterKey, beforeValue ++ value) := by
  have hfront : '=' ∉ (Vocabulary.word key).toList ++ afterKey := by
    intro hmem
    rcases List.mem_append.mp hmem with hmem | hmem
    · exact (isPlain_key key _ hmem).2.2.2 rfl
    · exact hafterKey.equals_not_mem hmem
  rw [← splitAssignment_append hfront]
  simp only [List.append_assoc, List.cons_append]

end

theorem readLine_of_writes {a : Option Assignment} (h : WritesLine a cs) (number : Nat) :
    readLine number cs = .ok a := by
  cases h with
  | empty hgap hremark =>
    rw [readLine, stripComment_append_remark hgap.isClosed hremark, trim_of_blank hgap.isBlank]
    rfl
  | @assignment b before afterKey beforeValue value after remark hbefore hafterKey hbeforeValue
      hvalue hafter hremark =>
    obtain ⟨hvalueBare, _, _⟩ := layout_of_spells hvalue
    have hbare := (isBare_key b.key).append (afterKey ++ '=' :: beforeValue) hvalueBare
    have hclosed := isClosed_assignment hafterKey hbeforeValue hvalue
    have htrim := trim_stripComment hbefore hbare hclosed hafter hremark
    have hkeyRead : Vocabulary.ofWord? ConfigKey
        (String.ofList (trim ((Vocabulary.word b.key).toList ++ afterKey))) = some b.key := by
      rw [trim_append_blank hafterKey.isBlank, (isBare_key b.key).trim_eq, String.ofList_toList]
      exact Vocabulary.ofWord?_word b.key
    have hvalueRead : readAssignment number (trim (beforeValue ++ value)) b.key = .ok b := by
      rw [trim_blank_append hbeforeValue.isBlank, hvalueBare.trim_eq]
      exact readAssignment_of_spells hvalue number
    simp only [readLine, htrim, List.isEmpty_eq_false_iff.mpr hbare.ne_nil,
      splitAssignment_key hafterKey, hkeyRead, hvalueRead]
    rfl

theorem IsRemark.newline_not_mem (h : IsRemark cs) : '\n' ∉ cs := by
  cases h with
  | none => exact List.not_mem_nil
  | comment htext => simpa using htext

theorem newline_not_mem_of_writes {a : Option Assignment} (h : WritesLine a cs) : '\n' ∉ cs := by
  cases h with
  | empty hgap hremark =>
    simp only [List.mem_append, not_or]
    exact ⟨hgap.newline_not_mem, hremark.newline_not_mem⟩
  | @assignment a before afterKey beforeValue value after remark hbefore hafterKey hbeforeValue
      hvalue hafter hremark =>
    simp only [List.mem_append, List.mem_cons, not_or]
    exact ⟨⟨⟨hbefore.newline_not_mem, newline_not_mem_of_isPlain (isPlain_key a.key),
      ⟨hafterKey.newline_not_mem, by decide, hbeforeValue.newline_not_mem⟩,
      (layout_of_spells hvalue).2.2⟩, hafter.newline_not_mem⟩, hremark.newline_not_mem⟩

theorem splitLines_append (h : '\n' ∉ cs) (read rest : List Char) :
    splitLines read (cs ++ rest) = splitLines (cs.reverse ++ read) rest := by
  induction cs generalizing read with
  | nil => rfl
  | cons c cs ih =>
    obtain ⟨hc, hcs⟩ := not_or.mp (mt List.mem_cons.mpr h)
    rw [List.cons_append, splitLines, ih hcs, List.reverse_cons, List.append_assoc]
    · rfl
    · exact Ne.symm hc

theorem readLines_newline (h : '\n' ∉ cs) (number : Nat) (text : List Char) :
    readLines number (splitLines [] (cs ++ '\n' :: text)) =
      readLines number (cs :: splitLines [] text) := by
  have hsplit (line : List Char) :
      splitLines line ('\n' :: text) = endLine line :: splitLines [] text := by simp [splitLines]
  rw [splitLines_append h, List.append_nil, hsplit, readLines, readLines, readLine_endLine]

theorem readLines_ending (h : '\n' ∉ cs) {ending : List Char}
    (hending : ending = ['\n'] ∨ ending = ['\r', '\n']) (number : Nat) (text : List Char) :
    readLines number (splitLines [] (cs ++ (ending ++ text))) =
      readLines number (cs :: splitLines [] text) := by
  rcases hending with rfl | rfl
  · exact readLines_newline h number text
  · have hreturn : '\n' ∉ cs ++ ['\r'] := by simpa using h
    have hsplit := readLines_newline hreturn number text
    rw [List.append_assoc] at hsplit
    rw [readLines, ← readLine_return, ← readLines]
    exact hsplit

theorem readLines_last (h : '\n' ∉ cs) (number : Nat) :
    readLines number (splitLines [] cs) = readLines number [cs] := by
  by_cases hempty : cs = []
  · subst hempty
    rfl
  · have hlast : splitLines cs.reverse [] = [cs] := by
      have hreversed : cs.reverse ≠ [] := mt List.reverse_eq_nil_iff.mp hempty
      obtain ⟨c, rest, hreverse⟩ := List.exists_cons_of_ne_nil hreversed
      rw [hreverse, splitLines, ← hreverse, List.reverse_reverse]
      exact List.cons_ne_nil c rest
    have hsplit := splitLines_append h [] []
    rw [List.append_nil, List.append_nil, hlast] at hsplit
    rw [hsplit]

theorem readLines_of_writes (h : Writes as text) (number : Nat) :
    readLines number (splitLines [] text) = .ok as := by
  induction h generalizing number with
  | @last a line hline =>
    rw [readLines_last (newline_not_mem_of_writes hline), readLines, readLine_of_writes hline]
    simp [readLines, Except.map]
  | @line a as line ending text hline hending _ ih =>
    rw [readLines_ending (newline_not_mem_of_writes hline) hending, readLines,
      readLine_of_writes hline, ih]
    rfl

/-- A valid configuration is read back from every text that assigns its values. The order of the
keys and the layout are free, and a key may be given other values before its last one. -/
theorem parse_of_writes {c : FileConfig} {text : String} (hvalid : c.validate = .ok ())
    (hlast : ∀ key, Assignment.lastFor? as key = c.assignment? key)
    (htext : Writes as text.toList) : parse text = .ok c := by
  have hassign : as.foldl FileConfig.assign {} = c := FileConfig.foldl_assign_eq hlast
  simp only [parse, readLines_of_writes htext, hassign, hvalid]

/-- Comments, both line ends, and a value that is out of range and given up again. -/
theorem parse_scattered_lines :
    let c : FileConfig := { minSeeders := some 12, databasePath := some "a#b=c.db" }
    let as := [.minSeeders 200000, .databasePath "a#b=c.db", .minSeeders 12]
    let text := " min_seeders=200000\t# many\r\n# \"x\n\ndatabase_path = \"a#b=c.db\"#y\n" ++
      "min_seeders\t= +012"
    c.validate = .ok () ∧ (∀ key, Assignment.lastFor? as key = c.assignment? key) ∧
      Writes as text.toList ∧ parse text = .ok c := by
  intro c as text
  have hvalid : c.validate = .ok () := rfl
  have hlast : ∀ key, Assignment.lastFor? as key = c.assignment? key := by
    intro key
    cases key <;> rfl
  have hnoGap : IsGap [] := fun _ h => nomatch h
  have hspace : IsGap [' '] := by simp [IsGap, isBlank, blankRanges]
  have htab : IsGap ['\t'] := by simp [IsGap, isBlank, blankRanges]
  have hmany : IsRemark "# many".toList := .comment (by decide)
  have hfirst := WritesLine.assignment (a := .minSeeders 200000) hspace hnoGap hnoGap
    (.plain 0 200000) htab hmany
  have hsecond : WritesLine none "# \"x".toList := .empty hnoGap (.comment (by decide))
  have hthird : WritesLine none [] := .empty hnoGap .none
  have hfourth := WritesLine.assignment (a := .databasePath "a#b=c.db") hnoGap hspace hspace
    (.quoted (by decide) (by decide)) hnoGap (.comment (by decide : '\n' ∉ "y".toList))
  have hfifth := WritesLine.assignment (a := .minSeeders 12) hnoGap htab hspace (.plus 1 12)
    hnoGap .none
  have hlines := Writes.line hfirst (.inr rfl) (.line hsecond (.inl rfl)
    (.line hthird (.inl rfl) (.line hfourth (.inl rfl) (.last hfifth))))
  have htext : Writes as text.toList := by
    refine Eq.mp (congrArg (Writes as) ?_) hlines
    decide +kernel
  exact ⟨hvalid, hlast, htext, parse_of_writes hvalid hlast htext⟩

end ReleaseWarden.Config
