/-! White space and trimming. `isBlank` is the Unicode property White_Space; a text is blank
when it holds nothing else. -/

set_option autoImplicit false

namespace ReleaseWarden.Text

/-- First and last code point of each run of White_Space characters. -/
def blankRanges : List (Nat × Nat) :=
  [(0x09, 0x0D), (0x20, 0x20), (0x85, 0x85), (0xA0, 0xA0), (0x1680, 0x1680), (0x2000, 0x200A),
    (0x2028, 0x2029), (0x202F, 0x202F), (0x205F, 0x205F), (0x3000, 0x3000)]

def isBlank (c : Char) : Bool :=
  blankRanges.any fun r => r.1 ≤ c.toNat && c.toNat ≤ r.2

def trimStart (cs : List Char) : List Char := cs.dropWhile isBlank

def trimEnd (cs : List Char) : List Char := (cs.reverse.dropWhile isBlank).reverse

def trim (cs : List Char) : List Char := trimEnd (trimStart cs)

/-- An empty text is blank. -/
def blank (s : String) : Bool := s.toList.all isBlank

theorem trimStart_append_of_blank {bs cs : List Char} (h : ∀ c ∈ bs, isBlank c = true) :
    trimStart (bs ++ cs) = trimStart cs := by
  unfold trimStart
  rw [List.dropWhile_append_of_pos h]

theorem trimEnd_append_of_blank {bs cs : List Char} (h : ∀ c ∈ bs, isBlank c = true) :
    trimEnd (cs ++ bs) = trimEnd cs := by
  unfold trimEnd
  rw [List.reverse_append, List.dropWhile_append_of_pos (by simpa using h)]

theorem trimStart_of_blank {cs : List Char} (h : ∀ c ∈ cs, isBlank c = true) :
    trimStart cs = [] := by
  have hend : trimStart (cs ++ []) = [] := trimStart_append_of_blank h
  rwa [List.append_nil] at hend

theorem trim_blank_append {bs cs : List Char} (h : ∀ c ∈ bs, isBlank c = true) :
    trim (bs ++ cs) = trim cs := by
  rw [trim, trimStart_append_of_blank h, trim]

theorem trim_append_blank {bs cs : List Char} (h : ∀ c ∈ bs, isBlank c = true) :
    trim (cs ++ bs) = trim cs := by
  have hstart : trimStart (cs ++ bs) =
      if (trimStart cs).isEmpty then trimStart bs else trimStart cs ++ bs := List.dropWhile_append
  rw [trim, trim, hstart]
  split
  · rename_i hempty
    rw [trimStart_of_blank h, List.isEmpty_iff.mp hempty]
  · exact trimEnd_append_of_blank h

theorem trim_of_blank {cs : List Char} (h : ∀ c ∈ cs, isBlank c = true) : trim cs = [] := by
  rw [trim, trimStart_of_blank h]
  rfl

theorem isBlank_of_mem_takeWhile {cs : List Char} {c : Char} (h : c ∈ cs.takeWhile isBlank) :
    isBlank c = true := List.all_eq_true.mp List.all_takeWhile c h

theorem exists_around_trim (cs : List Char) : ∃ before after, cs = before ++ (trim cs ++ after) ∧
    (∀ c ∈ before, isBlank c = true) ∧ ∀ c ∈ after, isBlank c = true := by
  have hend (ds : List Char) : ds = trimEnd ds ++ (ds.reverse.takeWhile isBlank).reverse := by
    rw [trimEnd, ← List.reverse_append, List.takeWhile_append_dropWhile, List.reverse_reverse]
  refine ⟨cs.takeWhile isBlank, ((trimStart cs).reverse.takeWhile isBlank).reverse, ?_, ?_, ?_⟩
  · rw [trim, ← hend, trimStart, List.takeWhile_append_dropWhile]
  · exact fun _ => isBlank_of_mem_takeWhile
  · exact fun _ hc => isBlank_of_mem_takeWhile (List.mem_reverse.mp hc)

theorem trimEnd_cons {c : Char} (h : isBlank c = false) (cs : List Char) :
    trimEnd (c :: cs) = c :: trimEnd cs := by
  have hc : [c].dropWhile isBlank = [c] := List.dropWhile_cons_of_neg (by simp [h])
  rw [trimEnd, trimEnd, List.reverse_cons, List.dropWhile_append, hc]
  split
  · rename_i hempty
    rw [List.isEmpty_iff.mp hempty]
    rfl
  · rw [List.reverse_append]
    rfl

theorem exists_of_dropWhile_ne_nil {cs : List Char} (h : cs.dropWhile isBlank ≠ []) :
    ∃ c rest, cs.dropWhile isBlank = c :: rest ∧ isBlank c = false := by
  obtain ⟨c, rest, hcs⟩ := List.exists_cons_of_ne_nil h
  have hfirst := List.head?_dropWhile_not isBlank cs
  rw [hcs] at hfirst
  exact ⟨c, rest, hcs, by simpa using hfirst⟩

/-- Some text, with white space at neither end. -/
structure IsBare (cs : List Char) : Prop where
  first : ∃ c rest, cs = c :: rest ∧ isBlank c = false
  last : ∃ front c, cs = front ++ [c] ∧ isBlank c = false

namespace IsBare

variable {as bs cs : List Char}

theorem singleton {c : Char} (h : isBlank c = false) : IsBare [c] where
  first := ⟨c, [], rfl, h⟩
  last := ⟨[], c, rfl, h⟩

theorem append (ha : IsBare as) (between : List Char) (hb : IsBare bs) :
    IsBare (as ++ (between ++ bs)) := by
  obtain ⟨a, rest, rfl, hfirst⟩ := ha.first
  obtain ⟨front, b, rfl, hlast⟩ := hb.last
  refine ⟨⟨a, _, List.cons_append, hfirst⟩, ⟨a :: rest ++ (between ++ front), b, ?_, hlast⟩⟩
  simp only [List.append_assoc]

theorem of_forall (hne : cs ≠ []) (h : ∀ c ∈ cs, isBlank c = false) : IsBare cs := by
  constructor
  · obtain ⟨c, rest, rfl⟩ := List.exists_cons_of_ne_nil hne
    exact ⟨c, rest, rfl, h c List.mem_cons_self⟩
  · refine ⟨cs.dropLast, cs.getLast hne, ?_, h _ (List.getLast_mem hne)⟩
    exact (List.dropLast_concat_getLast hne).symm

theorem ne_nil (h : IsBare cs) : cs ≠ [] := by
  obtain ⟨c, rest, rfl, _⟩ := h.first
  exact List.cons_ne_nil c rest

theorem trim_eq (h : IsBare cs) : trim cs = cs := by
  obtain ⟨c, rest, hc, hfirst⟩ := h.first
  obtain ⟨front, d, hd, hlast⟩ := h.last
  have hstart : trimStart cs = cs := by
    rw [hc, trimStart, List.dropWhile_cons_of_neg (by simp [hfirst])]
  have hend : trimEnd cs = cs := by
    rw [hd, trimEnd, List.reverse_concat, List.dropWhile_cons_of_neg (by simp [hlast]),
      List.reverse_cons, List.reverse_reverse]
  rw [trim, hstart, hend]

end IsBare

theorem isBare_trim {cs : List Char} (h : trim cs ≠ []) : IsBare (trim cs) := by
  constructor
  · have hstart : trimStart cs ≠ [] := by
      intro hnone
      rw [trim, hnone] at h
      exact h rfl
    obtain ⟨c, rest, hcs, hc⟩ := exists_of_dropWhile_ne_nil hstart
    refine ⟨c, trimEnd rest, ?_, hc⟩
    rw [trim, trimStart, hcs, trimEnd_cons hc]
  · have hend : (trimStart cs).reverse.dropWhile isBlank ≠ [] := mt List.reverse_eq_nil_iff.mpr h
    obtain ⟨c, rest, hcs, hc⟩ := exists_of_dropWhile_ne_nil hend
    refine ⟨rest.reverse, c, ?_, hc⟩
    rw [trim, trimEnd, hcs, List.reverse_cons]

theorem count_trim {c : Char} (h : isBlank c = false) (cs : List Char) :
    (trim cs).count c = cs.count c := by
  have hblank {bs : List Char} (hbs : ∀ b ∈ bs, isBlank b = true) : bs.count c = 0 := by
    apply List.count_eq_zero.mpr
    intro hc
    rw [hbs c hc] at h
    cases h
  obtain ⟨before, after, hcs, hbefore, hafter⟩ := exists_around_trim cs
  have hcount := congrArg (List.count c) hcs
  rw [List.count_append, List.count_append, hblank hbefore, hblank hafter] at hcount
  omega

theorem trim_around {before cs after : List Char} (hbefore : ∀ c ∈ before, isBlank c = true)
    (hcs : IsBare cs) (hafter : ∀ c ∈ after, isBlank c = true) :
    trim (before ++ (cs ++ after)) = cs := by
  rw [trim_blank_append hbefore, trim_append_blank hafter, hcs.trim_eq]

theorem exists_trim_append {as bs : List Char} (ha : IsBare (trim as)) (between : List Char)
    (hb : IsBare (trim bs)) :
    ∃ inside, trim (as ++ (between ++ bs)) = trim as ++ (inside ++ trim bs) := by
  obtain ⟨before, after, has, hbefore, _⟩ := exists_around_trim as
  obtain ⟨before', after', hbs, _, hafter'⟩ := exists_around_trim bs
  refine ⟨after ++ (between ++ before'), ?_⟩
  rw [← trim_around hbefore (ha.append (after ++ (between ++ before')) hb) hafter']
  congr 1
  conv => lhs; rw [has, hbs]
  simp only [List.append_assoc]

end ReleaseWarden.Text
