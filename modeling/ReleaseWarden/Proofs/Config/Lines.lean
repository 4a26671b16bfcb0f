import ReleaseWarden.Proofs.Config.Layout
import ReleaseWarden.Proofs.Outcome

/-! One line of a text between the others. The others are read the same whatever stands in it, and
it is read by itself. -/

set_option autoImplicit false

namespace ReleaseWarden.Config

/-- The second of the three parts of a text is one of its lines, without the end. Behind the last
end there is one more line, which may be empty. -/
structure IsLine (before line after : List Char) : Prop where
  begins : before = [] ∨ ∃ front, before = front ++ ['\n']
  newline_not_mem : '\n' ∉ line
  ends : after = [] ∨
    ∃ ending text, (ending = ['\n'] ∨ ending = ['\r', '\n']) ∧ after = ending ++ text

variable {before line after cs text : List Char} {number : Nat}

theorem splitLines_newline (read text : List Char) :
    splitLines read ('\n' :: text) = endLine read :: splitLines [] text := by
  simp [splitLines]

theorem splitLines_char {c : Char} (hc : c ≠ '\n') (read text : List Char) :
    splitLines read (c :: text) = splitLines (c :: read) text := by
  rw [splitLines]
  exact hc

theorem splitLines_front (read front text : List Char) :
    splitLines read (front ++ '\n' :: text) =
      splitLines read (front ++ ['\n']) ++ splitLines [] text := by
  induction front generalizing read with
  | nil => rw [List.nil_append, List.nil_append, splitLines_newline, splitLines_newline]; rfl
  | cons c front ih =>
    by_cases hc : c = '\n'
    · subst hc
      rw [List.cons_append, List.cons_append, splitLines_newline, splitLines_newline, ih,
        List.cons_append]
    · rw [List.cons_append, List.cons_append, splitLines_char hc, splitLines_char hc, ih]

theorem splitLines_before (h : before = [] ∨ ∃ front, before = front ++ ['\n'])
    (text : List Char) :
    splitLines [] (before ++ text) = splitLines [] before ++ splitLines [] text := by
  rcases h with rfl | ⟨front, rfl⟩
  · rfl
  · rw [List.append_assoc, List.singleton_append, splitLines_front]

theorem length_splitLines (read front : List Char) :
    (splitLines read (front ++ ['\n'])).length = (front ++ ['\n']).count '\n' := by
  induction front generalizing read with
  | nil => rw [List.nil_append, splitLines_newline]; rfl
  | cons c front ih =>
    by_cases hc : c = '\n'
    · subst hc
      rw [List.cons_append, splitLines_newline, List.length_cons, ih, List.count_cons_self]
    · rw [List.cons_append, splitLines_char hc, ih, List.count_cons_of_ne hc]

theorem length_splitLines_before (h : before = [] ∨ ∃ front, before = front ++ ['\n']) :
    (splitLines [] before).length = before.count '\n' := by
  rcases h with rfl | ⟨front, rfl⟩
  · rfl
  · exact length_splitLines [] front

theorem readLines_append (number : Nat) (front back : List (List Char)) :
    readLines number (front ++ back) =
      readLines number front >>= fun as =>
        (readLines (number + front.length) back).map (as ++ ·) := by
  induction front generalizing number with
  | nil =>
    change readLines number back = (readLines number back).map _
    cases readLines number back <;> rfl
  | cons line front ih =>
    rw [List.cons_append, readLines, readLines]
    cases readLine number line with
    | error e => rfl
    | ok a =>
      have hnumber : number + 1 + front.length = number + (line :: front).length := by
        rw [List.length_cons]
        omega
      simp only [ih, hnumber]
      cases readLines (number + 1) front with
      | error e => rfl
      | ok as =>
        change ((readLines (number + (line :: front).length) back).map (as ++ ·)).map _ =
          (readLines (number + (line :: front).length) back).map _
        cases readLines (number + (line :: front).length) back with
        | error e => rfl
        | ok bs => exact congrArg Except.ok (List.append_assoc a.toList as bs).symm

theorem exists_lines_after
    (h : after = [] ∨
      ∃ ending text, (ending = ['\n'] ∨ ending = ['\r', '\n']) ∧ after = ending ++ text) :
    ∃ rest, ∀ number line, '\n' ∉ line →
      readLines number (splitLines [] (line ++ after)) = readLines number (line :: rest) := by
  rcases h with rfl | ⟨ending, text, hending, rfl⟩
  · refine ⟨[], fun number line hline => ?_⟩
    rw [List.append_nil, readLines_last hline]
  · exact ⟨splitLines [] text, fun number line hline => readLines_ending hline hending number text⟩

theorem exists_readLines_line (h : IsLine before line after) :
    ∃ rest, ∀ line', '\n' ∉ line' →
      readLines 1 (splitLines [] (before ++ (line' ++ after))) =
        readLines 1 (splitLines [] before) >>= fun front =>
          (readLines (before.count '\n' + 1) (line' :: rest)).map (front ++ ·) := by
  obtain ⟨rest, hrest⟩ := exists_lines_after h.ends
  refine ⟨rest, fun line' hline' => ?_⟩
  rw [splitLines_before h.begins, readLines_append, length_splitLines_before h.begins,
    Nat.add_comm 1]
  simp only [hrest _ _ hline']

theorem parse_congr (h : IsLine before line after) {line' : List Char} (hline' : '\n' ∉ line')
    (hread : ∀ number, readLine number line' = readLine number line) :
    parse (String.ofList (before ++ (line' ++ after))) =
      parse (String.ofList (before ++ (line ++ after))) := by
  obtain ⟨rest, hrest⟩ := exists_readLines_line h
  have hlines : readLines 1 (splitLines [] (before ++ (line' ++ after))) =
      readLines 1 (splitLines [] (before ++ (line ++ after))) := by
    rw [hrest line' hline', hrest line h.newline_not_mem]
    simp only [readLines, hread]
  simp only [parse, String.toList_ofList, hlines]

theorem parse_of_faulty (h : IsLine before line after) {c : FileConfig} {line' : List Char}
    (hline' : '\n' ∉ line') (hparse : parse (String.ofList (before ++ (line ++ after))) = .ok c)
    {e : ConfigError} (hread : readLine (before.count '\n' + 1) line' = .error e) :
    parse (String.ofList (before ++ (line' ++ after))) = .error e := by
  obtain ⟨rest, hrest⟩ := exists_readLines_line h
  have hfront : ∃ as, readLines 1 (splitLines [] before) = .ok as := by
    cases hbefore : readLines 1 (splitLines [] before) with
    | ok as => exact ⟨as, rfl⟩
    | error e =>
      have hlines := hrest line h.newline_not_mem
      rw [hbefore] at hlines
      have herror : readLines 1 (splitLines [] (before ++ (line ++ after))) = .error e := hlines
      rw [parse, String.toList_ofList, herror] at hparse
      cases hparse
  obtain ⟨as, has⟩ := hfront
  have hlines : readLines 1 (splitLines [] (before ++ (line' ++ after))) = .error e := by
    rw [hrest line' hline', has, readLines, hread]
    rfl
  rw [parse, String.toList_ofList, hlines]

theorem exists_readLine_of_parse (h : IsLine before line after) {c : FileConfig}
    (hparse : parse (String.ofList (before ++ (line ++ after))) = .ok c) :
    ∃ number a, readLine number line = .ok a := by
  cases hread : readLine (before.count '\n' + 1) line with
  | ok a => exact ⟨_, a, hread⟩
  | error e => cases hparse.symm.trans (parse_of_faulty h h.newline_not_mem hparse hread)

end ReleaseWarden.Config
