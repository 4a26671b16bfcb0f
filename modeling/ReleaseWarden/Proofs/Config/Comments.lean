import ReleaseWarden.Proofs.Config.Lines
import ReleaseWarden.Proofs.Config.Readings

/-! Comments behind a line. Whether one may begin hangs on the quotes before it: the reader of lines
counts them all, while the reader of values looks at the first and the last one only. So a comment
changes nothing, except behind a path with an odd number of quotes in it. -/

set_option autoImplicit false

namespace ReleaseWarden.Config

open Text

/-- No comment has begun at the end of the line, and none can begin there, as a quote is open. -/
def endsQuoted : Bool → List Char → Bool
  | quoted, [] => quoted
  | quoted, c :: cs =>
    if c = '#' ∧ quoted = false then false
    else endsQuoted (if c = '"' then !quoted else quoted) cs

/-- The line assigns a path in which an odd number of quotes stand. -/
def OddlyQuoted (line : List Char) : Prop :=
  ∃ path, Holds (some (.databasePath path)) (content line) ∧ path.toList.count '"' % 2 = 1

/-- White space, a number sign and any text, all on one line. -/
inductive IsComment : List Char → Prop
  | behind {gap remark : List Char} : IsGap gap → '\n' ∉ remark → IsComment (gap ++ '#' :: remark)

variable {quoted : Bool} {line comment cs : List Char} {number : Nat} {path : String}

theorem IsComment.newline_not_mem (h : IsComment comment) : '\n' ∉ comment := by
  cases h with
  | behind hgap hremark =>
    simp only [List.mem_append, List.mem_cons, not_or]
    exact ⟨hgap.newline_not_mem, by decide, hremark⟩

theorem endsQuoted_eq (quoted : Bool) (cs : List Char) :
    endsQuoted quoted cs = (quoted ^^ decide ((stripComment quoted cs).count '"' % 2 = 1)) := by
  induction cs generalizing quoted with
  | nil => cases quoted <;> rfl
  | cons c cs ih =>
    rw [endsQuoted, stripComment]
    split
    · rename_i h
      rw [h.2]
      rfl
    · rw [ih]
      by_cases hc : c = '"'
      · subst hc
        have hflip (n : Nat) : decide ((n + 1) % 2 = 1) = !decide (n % 2 = 1) := by
          rw [← decide_not]
          exact decide_eq_decide.mpr (by omega)
        rw [if_pos rfl, List.count_cons_self, hflip, Bool.not_xor, Bool.xor_not]
      · rw [if_neg hc, List.count_cons_of_ne hc]

theorem stripComment_append_of_endsQuoted (h : endsQuoted quoted cs = true) (rest : List Char) :
    stripComment quoted (cs ++ rest) = cs ++ stripComment true rest := by
  induction cs generalizing quoted with
  | nil =>
    obtain rfl : quoted = true := h
    rfl
  | cons c cs ih =>
    rw [endsQuoted] at h
    split at h
    · cases h
    · rename_i hc
      rw [List.cons_append, stripComment, if_neg hc, ih h, List.cons_append]

theorem stripComment_of_endsQuoted (h : endsQuoted quoted cs = true) :
    stripComment quoted cs = cs := by
  have happend := stripComment_append_of_endsQuoted h []
  rwa [List.append_nil, stripComment, List.append_nil] at happend

theorem stripComment_comment_of_endsQuoted {gap : List Char} (h : endsQuoted quoted cs = true)
    (hgap : IsGap gap) (remark : List Char) :
    stripComment quoted (cs ++ (gap ++ '#' :: remark)) =
      cs ++ (gap ++ '#' :: stripComment true remark) := by
  have hquote : '"' ∉ gap := fun hmem => absurd (hgap _ hmem).1 (by decide)
  rw [stripComment_append_of_endsQuoted h, stripComment_quoted hquote]
  rfl

theorem trim_stripComment_comment (h : endsQuoted quoted cs = false)
    (hcomment : IsComment comment) :
    trim (stripComment quoted (cs ++ comment)) = trim (stripComment quoted cs) := by
  obtain @⟨gap, remark, hgap, _⟩ := hcomment
  have hcases : stripComment quoted (cs ++ (gap ++ '#' :: remark)) = stripComment quoted cs ∨
      stripComment quoted (cs ++ (gap ++ '#' :: remark)) = stripComment quoted cs ++ gap := by
    induction cs generalizing quoted with
    | nil =>
      obtain rfl : quoted = false := h
      rw [List.nil_append, hgap.isClosed]
      exact .inr (List.append_nil gap)
    | cons c cs ih =>
      rw [endsQuoted] at h
      rw [List.cons_append, stripComment, stripComment]
      split
      · exact .inl rfl
      · rename_i hc
        rw [if_neg hc] at h
        rcases ih h with h | h
        · exact .inl (congrArg (c :: ·) h)
        · exact .inr (congrArg (c :: ·) h)
  rcases hcases with h | h
  · rw [h]
  · rw [h, trim_append_blank hgap.isBlank]

theorem readLine_comment (h : endsQuoted false line = false) (hcomment : IsComment comment) :
    readLine number (line ++ comment) = readLine number line := by
  simp only [readLine, trim_stripComment_comment h hcomment]

theorem count_quotes_of_isPlain (h : ∀ c ∈ cs, IsPlain c) : cs.count '"' = 0 := by
  apply List.count_eq_zero.mpr
  intro hquote
  exact (h _ hquote).2.2.1 rfl

theorem odd_quotes_iff {a : Option Assignment} (h : Holds a cs) :
    cs.count '"' % 2 = 1 ↔
      ∃ path, a = some (.databasePath path) ∧ path.toList.count '"' % 2 = 1 := by
  cases h with
  | nothing => exact iff_of_false (by decide) nofun
  | @assignment a key value hkey hname hvalue =>
    have hquote : isBlank '"' = false := by decide
    have hnone : key.count '"' = 0 := by
      rw [← count_trim hquote, hname]
      exact count_quotes_of_isPlain (isPlain_key a.key)
    have hcount : (key ++ '=' :: value).count '"' = (trim value).count '"' := by
      rw [List.count_append, hnone, Nat.zero_add, List.count_cons_of_ne (by decide),
        count_trim hquote]
    rw [hcount]
    rcases denotes_cases hvalue with ⟨path, rfl, hpath⟩ | ⟨hother, hspells⟩
    · rw [hpath, List.count_cons_self, List.count_append, List.count_singleton_self]
      constructor
      · exact fun h => ⟨path, rfl, by omega⟩
      · rintro ⟨path', heq, h⟩
        cases heq
        omega
    · rcases plain_or_quoted hspells with ⟨_, hplain⟩ | ⟨path, hpath, _⟩
      · rw [count_quotes_of_isPlain hplain]
        refine iff_of_false (by decide) ?_
        rintro ⟨path, heq, _⟩
        exact hother path (Option.some.inj heq)
      · exact absurd hpath (hother path)

theorem endsQuoted_iff {a : Option Assignment} (h : Holds a (content line)) :
    endsQuoted false line = true ↔ OddlyQuoted line := by
  have hquote : isBlank '"' = false := by decide
  rw [endsQuoted_eq, Bool.false_xor, decide_eq_true_iff, ← count_trim hquote]
  constructor
  · intro hodd
    obtain ⟨path, rfl, hpath⟩ := (odd_quotes_iff h).mp hodd
    exact ⟨path, h, hpath⟩
  · rintro ⟨path, hholds, hpath⟩
    exact (odd_quotes_iff hholds).mpr ⟨path, rfl, hpath⟩

theorem exists_content_comment (hopen : endsQuoted false line = true) (hne : content line ≠ [])
    (hcomment : IsComment comment) : ∃ between rest, content (line ++ comment) =
      content line ++ (between ++ rest) ∧ IsBare rest ∧ ('"' ∉ comment → '"' ∉ rest) := by
  obtain @⟨gap, remark, hgap, _⟩ := hcomment
  have hstrip := stripComment_comment_of_endsQuoted hopen hgap remark
  have hcontent : content line = trim line := by rw [content, stripComment_of_endsQuoted hopen]
  have hbare : IsBare (trim line) := isBare_trim (hcontent ▸ hne)
  generalize hkept : '#' :: stripComment true remark = kept at hstrip
  have hrest : trim kept ≠ [] := by
    intro hnone
    have hcount := count_trim (by decide : isBlank '#' = false) kept
    rw [hnone, ← hkept, List.count_cons_self] at hcount
    cases hcount
  obtain ⟨inside, htrim⟩ := exists_trim_append hbare gap (isBare_trim hrest)
  refine ⟨inside, trim kept, ?_, isBare_trim hrest, ?_⟩
  · rw [hcontent, content, hstrip, htrim]
  · intro hquote
    have hremark : '"' ∉ remark := fun hmem =>
      hquote (List.mem_append_right gap (List.mem_cons_of_mem '#' hmem))
    have hwhole : stripComment true remark = remark := by
      have happend := stripComment_quoted hremark []
      rwa [List.append_nil, stripComment, List.append_nil] at happend
    apply List.count_eq_zero.mp
    rw [count_trim (by decide : isBlank '"' = false), ← hkept, hwhole,
      List.count_cons_of_ne (by decide), List.count_eq_zero.mpr hremark]

theorem exists_readLine_comment (hholds : Holds (some (.databasePath path)) (content line))
    (hopen : endsQuoted false line = true) (hcomment : IsComment comment) :
    ∃ between rest, rest ≠ [] ∧ ('"' ∉ comment → '"' ∉ rest) ∧
      ∀ number, readLine number (line ++ comment) = (readAssignment number
        ('"' :: (path.toList ++ '"' :: (between ++ rest))) .databasePath).map some := by
  generalize hcontent : content line = cs at hholds
  cases hholds with
  | @assignment _ key value hkey hname hvalue =>
    have hne : content line ≠ [] := by
      rw [hcontent]
      exact List.append_ne_nil_of_right_ne_nil _ (List.cons_ne_nil _ _)
    obtain ⟨between, rest, hlonger, hrest, hquote⟩ := exists_content_comment hopen hne hcomment
    have hends : IsBare ['"'] := .singleton (by decide)
    have hquoted : trim value = '"' :: (path.toList ++ ['"']) := hvalue
    have hbare : IsBare (trim value) := hquoted ▸ hends.append path.toList hends
    obtain ⟨inside, htrim⟩ := exists_trim_append hbare between (hrest.trim_eq.symm ▸ hrest)
    rw [hrest.trim_eq] at htrim
    refine ⟨inside, rest, hrest.ne_nil, hquote, fun number => ?_⟩
    rw [hcontent, List.append_assoc, List.cons_append] at hlonger
    rw [readLine_of_content hkey hname hlonger, htrim, hquoted]
    simp only [List.cons_append, List.append_assoc]
    rfl

theorem readQuoted_of_rest (cs : List Char) {rest : List Char} (hne : rest ≠ [])
    (hquote : '"' ∉ rest) : readQuoted ('"' :: (cs ++ rest)) = .error .stringExpected := by
  rw [readQuoted, if_neg]
  rw [List.getLast?_append_of_ne_nil _ hne]
  exact fun hlast => hquote (List.mem_of_getLast? hlast)

theorem readLine_comment_of_odd (hholds : Holds (some (.databasePath path)) (content line))
    (hopen : endsQuoted false line = true) (hcomment : IsComment comment) :
    ('"' ∉ comment → ∀ number, readLine number (line ++ comment) =
      .error (.badValue .databasePath number .stringExpected)) ∧
    ¬ Holds (some (.databasePath path)) (content (line ++ comment)) := by
  obtain ⟨between, rest, hne, hrest, hread⟩ := exists_readLine_comment hholds hopen hcomment
  constructor
  · intro hquote number
    have hfault := readQuoted_of_rest (path.toList ++ '"' :: between) hne (hrest hquote)
    rw [List.append_assoc, List.cons_append] at hfault
    rw [hread, readAssignment, readAs, hfault]
    rfl
  · intro hsame
    obtain ⟨a, ha, heq⟩ := map_eq_ok_iff.mp ((hread 0).symm.trans (readLine_eq_ok_iff.mpr hsame))
    cases heq
    have hpath : _ = '"' :: (path.toList ++ ['"']) := (denotes_of_readAssignment ha).2
    rw [List.cons.injEq, List.append_right_inj, List.cons.injEq] at hpath
    exact hne (List.append_eq_nil_iff.mp hpath.2.2).2

/-- In a text that is accepted, a comment behind a line changes nothing, unless the line assigns a
path with an odd number of quotes in it. Behind such a line no comment leaves the path as it is, and
one without quotes refuses the text. -/
theorem comments_change_nothing_iff {before line after : List Char} {c : FileConfig}
    (hline : IsLine before line after)
    (h : parse (String.ofList (before ++ (line ++ after))) = .ok c) :
    (¬ OddlyQuoted line ↔ ∀ comment, IsComment comment →
      parse (String.ofList (before ++ (line ++ comment ++ after))) = .ok c) ∧
    (OddlyQuoted line → ∀ comment, IsComment comment →
      ('"' ∉ comment → parse (String.ofList (before ++ (line ++ comment ++ after))) =
        .error (.badValue .databasePath (before.count '\n' + 1) .stringExpected)) ∧
      ∀ path, Holds (some (.databasePath path)) (content line) →
        ¬ Holds (some (.databasePath path)) (content (line ++ comment))) := by
  obtain ⟨number, a, ha⟩ := exists_readLine_of_parse hline h
  have hholds := readLine_eq_ok_iff.mp ha
  have hnewline {comment : List Char} (hcomment : IsComment comment) : '\n' ∉ line ++ comment :=
    List.not_mem_append hline.newline_not_mem hcomment.newline_not_mem
  have hrefused (hodd : OddlyQuoted line) {comment : List Char} (hcomment : IsComment comment)
      (hquote : '"' ∉ comment) :
      parse (String.ofList (before ++ (line ++ comment ++ after))) =
        .error (.badValue .databasePath (before.count '\n' + 1) .stringExpected) := by
    obtain ⟨path, hpath, _⟩ := id hodd
    have hopen := (endsQuoted_iff hholds).mpr hodd
    exact parse_of_faulty hline (hnewline hcomment) h
      ((readLine_comment_of_odd hpath hopen hcomment).1 hquote _)
  refine ⟨⟨?_, ?_⟩, ?_⟩
  · intro heven comment hcomment
    have hclosed : endsQuoted false line = false :=
      Bool.eq_false_iff.mpr (mt (endsQuoted_iff hholds).mp heven)
    rw [parse_congr hline (hnewline hcomment) fun _ => readLine_comment hclosed hcomment, h]
  · intro hall hodd
    have hnoGap : IsGap [] := nofun
    have hempty : IsComment ['#'] := .behind hnoGap List.not_mem_nil
    have hquote : '"' ∉ ['#'] := by decide
    cases (hrefused hodd hempty hquote).symm.trans (hall _ hempty)
  · intro hodd comment hcomment
    refine ⟨hrefused hodd hcomment, fun path hpath => ?_⟩
    exact (readLine_comment_of_odd hpath ((endsQuoted_iff hholds).mpr hodd) hcomment).2

/-- Of two lines that assign a path, one has an even number of quotes in it, one an odd number. -/
theorem evenPath_keeps_comment :
    let odd := "database_path = \"a\"b\"".toList
    let even := "database_path = \"a\" \"b\"".toList
    let comment := " # the store".toList
    let c : FileConfig := { databasePath := some "a\" \"b" }
    IsLine (odd ++ ['\n']) even [] ∧ IsLine [] odd ('\n' :: even) ∧ IsComment comment ∧
      parse (String.ofList (odd ++ ['\n'] ++ (even ++ []))) = .ok c ∧
      ¬ OddlyQuoted even ∧
      parse (String.ofList (odd ++ ['\n'] ++ (even ++ comment ++ []))) = .ok c ∧
      OddlyQuoted odd ∧
      parse (String.ofList ([] ++ (odd ++ comment ++ '\n' :: even))) =
        .error (.badValue .databasePath 1 .stringExpected) := by
  intro odd even comment c
  have hspace : IsGap [' '] := by simp [IsGap, isBlank, blankRanges]
  have hcomment : IsComment comment := .behind hspace (by decide : '\n' ∉ " the store".toList)
  have heven : IsLine (odd ++ ['\n']) even [] := ⟨.inr ⟨odd, rfl⟩, by decide, .inl rfl⟩
  have hodd : IsLine [] odd ('\n' :: even) :=
    ⟨.inl rfl, by decide, .inr ⟨['\n'], even, .inl rfl, rfl⟩⟩
  have hparse : parse (String.ofList (odd ++ ['\n'] ++ (even ++ []))) = .ok c := by
    rw [parse, String.toList_ofList]
    rfl
  have hnot : ¬ OddlyQuoted even := by
    rintro ⟨path, hpath, hcount⟩
    have hread : readLine 0 even = .ok (some (.databasePath "a\" \"b")) := by decide +kernel
    cases hread.symm.trans (readLine_eq_ok_iff.mpr hpath)
    exact absurd hcount (by decide)
  have hyes : OddlyQuoted odd := by
    have hread : readLine 0 odd = .ok (some (.databasePath "a\"b")) := by decide +kernel
    exact ⟨"a\"b", readLine_eq_ok_iff.mp hread, by decide⟩
  refine ⟨heven, hodd, hcomment, hparse, hnot, ?_, hyes, ?_⟩
  · exact (comments_change_nothing_iff heven hparse).1.mp hnot comment hcomment
  · exact ((comments_change_nothing_iff hodd hparse).2 hyes comment hcomment).1 (by decide)

/-- A path with one quote in it does not bear a comment: it is refused with one, and with another
one it is read as a different path. -/
theorem quote_in_path_swallows_comment :
    parse "database_path = \"a\"b\"" = .ok { databasePath := some "a\"b" } ∧
      parse "database_path = \"a\"b\" # c" =
        .error (.badValue .databasePath 1 .stringExpected) ∧
      parse "database_path = \"a\"b\" # \"c\"" =
        .ok { databasePath := some "a\"b\" # \"c" } :=
  ⟨rfl, rfl, rfl⟩

end ReleaseWarden.Config
