import Mathlib.Data.List.Forall2
import Mathlib.Data.List.TakeWhile
import ReleaseWarden.Proofs.Config.Layout
import ReleaseWarden.Proofs.Outcome

/-! What the lines of a configuration hold, said without the reader. A text is accepted exactly when
each of its lines holds something and the last values are in range, and then they are what is
read. -/

set_option autoImplicit false

namespace ReleaseWarden.Config

open Text Schema

/-- The characters are a value for the assignment. A path is all that stands between the first and
the last quote. -/
def Denotes : Assignment → List Char → Prop
  | .databasePath path, cs => cs = '"' :: (path.toList ++ ['"'])
  | a, cs => SpellsValue a cs

/-- What is left of a line without its comment and without white space at its ends. -/
def content (line : List Char) : List Char := trim (stripComment false line)

/-- The content of a line is empty, or there are a known key before the first equals sign and a
value of its kind behind it. -/
inductive Holds : Option Assignment → List Char → Prop
  | nothing : Holds none []
  | assignment {a : Assignment} {key value : List Char} : '=' ∉ key →
      trim key = (Vocabulary.word a.key).toList → Denotes a (trim value) →
      Holds (some a) (key ++ '=' :: value)

variable {cs : List Char} {number : Nat}

section Numbers

variable {least greatest v : Int}

theorem raise_eq_ok {n : Nat} {c : Char} (h : raise greatest n c = .ok v) :
    ∃ d < 10, c = Nat.digitChar d ∧ v = ((10 * n + d : Nat) : Int) := by
  unfold raise at h
  cases hdigit : digit? c with
  | none =>
    rw [hdigit] at h
    cases h
  | some d =>
    rw [hdigit] at h
    obtain ⟨hd, rfl⟩ := digit?_eq_some_iff.mp hdigit
    simp only at h
    split at h
    · cases h
      exact ⟨d, hd, rfl, by omega⟩
    · cases h

theorem toDigits_of_foldlM_raise {n : Nat} (hn : 0 < n)
    (h : cs.foldlM (raise greatest) (n : Int) = .ok v) :
    ∃ m : Nat, v = m ∧ Nat.toDigits 10 n ++ cs = Nat.toDigits 10 m := by
  induction cs generalizing n with
  | nil =>
    cases h
    exact ⟨n, rfl, List.append_nil _⟩
  | cons c cs ih =>
    rw [List.foldlM_cons] at h
    obtain ⟨w, hw, h⟩ := bind_eq_ok_iff.mp h
    obtain ⟨d, hd, rfl, rfl⟩ := raise_eq_ok hw
    obtain ⟨m, hm, hdigits⟩ := ih (by omega) h
    refine ⟨m, hm, ?_⟩
    rw [← hdigits, ← Nat.toDigits_append_toDigits (by omega) hn hd, Nat.toDigits_of_lt_base hd,
      List.append_assoc, List.singleton_append]

theorem decimal_of_foldlM_raise (hne : cs ≠ []) (h : cs.foldlM (raise greatest) 0 = .ok v) :
    ∃ zeros n : Nat, v = n ∧ cs = decimal zeros n := by
  induction cs with
  | nil => exact absurd rfl hne
  | cons c cs ih =>
    rw [List.foldlM_cons] at h
    obtain ⟨w, hw, h⟩ := bind_eq_ok_iff.mp h
    obtain ⟨d, hd, rfl, rfl⟩ := raise_eq_ok (n := 0) hw
    rw [Nat.mul_zero, Nat.zero_add] at h
    by_cases hzero : d = 0
    · subst hzero
      cases cs with
      | nil =>
        cases h
        exact ⟨0, 0, rfl, rfl⟩
      | cons c cs =>
        obtain ⟨zeros, n, hn, hcs⟩ := ih (List.cons_ne_nil c cs) h
        exact ⟨zeros + 1, n, hn, congrArg ('0' :: ·) hcs⟩
    · obtain ⟨m, hm, hdigits⟩ := toDigits_of_foldlM_raise (Nat.pos_of_ne_zero hzero) h
      rw [Nat.toDigits_of_lt_base hd] at hdigits
      exact ⟨0, m, hm, hdigits⟩

theorem lower_eq_ok {w : Int} {c : Char} (h : lower least w c = .ok v) :
    ∃ d < 10, c = Nat.digitChar d ∧ v = w * 10 - (d : Int) := by
  unfold lower at h
  cases hdigit : digit? c with
  | none =>
    rw [hdigit] at h
    cases h
  | some d =>
    rw [hdigit] at h
    obtain ⟨hd, rfl⟩ := digit?_eq_some_iff.mp hdigit
    simp only at h
    split at h
    · cases h
      exact ⟨d, hd, rfl, rfl⟩
    · cases h

theorem zeros_of_foldlM_lower {w : Int} (hw : w ≤ 0) (hv : 0 ≤ v)
    (h : cs.foldlM (lower least) w = .ok v) :
    w = 0 ∧ v = 0 ∧ cs = List.replicate cs.length '0' := by
  induction cs generalizing w with
  | nil =>
    cases h
    exact ⟨by omega, by omega, rfl⟩
  | cons c cs ih =>
    rw [List.foldlM_cons] at h
    obtain ⟨x, hx, h⟩ := bind_eq_ok_iff.mp h
    obtain ⟨d, _, rfl, rfl⟩ := lower_eq_ok hx
    obtain ⟨hzero, hv, hcs⟩ := ih (by omega) h
    obtain rfl : d = 0 := by omega
    exact ⟨by omega, hv, congrArg ('0' :: ·) hcs⟩

theorem spells_of_readInteger (hv : 0 ≤ v) (h : readInteger least greatest cs = .ok v) :
    ∃ n : Nat, v = n ∧ SpellsNumber n cs := by
  unfold readInteger at h
  split at h
  · cases h
  · cases h
  · cases h
  · rename_i ds hplus
    obtain ⟨zeros, n, hn, rfl⟩ := decimal_of_foldlM_raise (by simpa using hplus) h
    exact ⟨n, hn, .plus zeros n⟩
  · rename_i ds hminus
    have hne : ds ≠ [] := by simpa using hminus
    obtain ⟨_, rfl, hds⟩ := zeros_of_foldlM_lower (Int.le_refl 0) hv h
    obtain ⟨k, hk⟩ : ∃ k, ds.length = k + 1 :=
      Nat.exists_eq_succ_of_ne_zero (mt List.length_eq_zero_iff.mp hne)
    rw [hk] at hds
    subst hds
    exact ⟨0, rfl, .minus k⟩
  · rename_i hempty _ _ _ _
    obtain ⟨zeros, n, hn, rfl⟩ := decimal_of_foldlM_raise hempty h
    exact ⟨n, hn, .plain zeros n⟩

end Numbers

theorem readUInt64_eq_ok_iff {n : UInt64} : readUInt64 cs = .ok n ↔ SpellsNumber n.toNat cs := by
  constructor
  · intro h
    unfold readUInt64 at h
    split at h
    · cases h
    · split at h
      · cases h
      · rename_i v hread
        split at h
        · cases h
        · rename_i hneg
          split at h
          · rename_i m hm
            cases h
            obtain ⟨k, rfl, hspells⟩ := spells_of_readInteger (Int.not_lt.mp hneg) hread
            have hvalue : ((n.toNat : Nat) : Int) = k := Bounded.toInt_of_ofInt?_eq_some hm
            rwa [Int.ofNat_inj.mp hvalue]
          · cases h
  · exact readUInt64_of_spells

theorem readBool_eq_ok_iff {b : Bool} : readBool cs = .ok b ↔ SpellsBool b cs := by
  constructor
  · intro h
    unfold readBool at h
    split at h
    · cases h
      subst cs
      exact .yes
    · split at h
      · cases h
        subst cs
        exact .no
      · cases h
  · exact readBool_of_spells

theorem readQuoted_eq_ok_iff {path : String} :
    readQuoted cs = .ok path ↔ cs = '"' :: (path.toList ++ ['"']) := by
  constructor
  · intro h
    unfold readQuoted at h
    split at h
    · split at h
      · rename_i ds hlast
        cases h
        rw [String.toList_ofList]
        obtain ⟨front, rfl⟩ := List.getLast?_eq_some_iff.mp hlast
        rw [List.dropLast_concat]
      · cases h
    · cases h
  · rintro rfl
    simp [readQuoted]

theorem map_readAs_eq_ok_iff {α : Type} {key : ConfigKey} {read : List Char → Except ValueFault α}
    {make : α → Assignment} {a : Assignment} :
    (readAs key number read cs).map make = .ok a ↔ ∃ x, read cs = .ok x ∧ make x = a := by
  rw [map_eq_ok_iff, readAs]
  cases read cs <;> simp

theorem denotes_cases {a : Assignment} (h : Denotes a cs) :
    (∃ path, a = .databasePath path ∧ cs = '"' :: (path.toList ++ ['"'])) ∨
      (∀ path, a ≠ .databasePath path) ∧ SpellsValue a cs := by
  cases a with
  | databasePath path => exact .inl ⟨path, rfl, h⟩
  | _ => exact .inr ⟨nofun, h⟩

theorem readAssignment_of_denotes {a : Assignment} (h : Denotes a cs) :
    readAssignment number cs a.key = .ok a := by
  rcases denotes_cases h with ⟨path, rfl, hcs⟩ | ⟨_, hspells⟩
  · exact map_readAs_eq_ok_iff.mpr ⟨path, readQuoted_eq_ok_iff.mpr hcs, rfl⟩
  · exact readAssignment_of_spells hspells number

theorem denotes_of_readAssignment {key : ConfigKey} {a : Assignment}
    (h : readAssignment number cs key = .ok a) : a.key = key ∧ Denotes a cs := by
  cases key with
  | minSeeders =>
    simp only [readAssignment, readAs] at h
    cases hread : readUInt64 cs with
    | error fault =>
      simp only [hread] at h
      cases h
    | ok n =>
      simp only [hread] at h
      cases hwidth : Bounded.ofInt? UInt32 (n.toNat : Int) with
      | none =>
        simp only [hwidth] at h
        cases h
      | some m =>
        simp only [hwidth] at h
        cases h
        have hvalue : ((m.toNat : Nat) : Int) = n.toNat := Bounded.toInt_of_ofInt?_eq_some hwidth
        have hspells : SpellsNumber m.toNat cs := by
          rw [Int.ofNat_inj.mp hvalue]
          exact readUInt64_eq_ok_iff.mp hread
        exact ⟨rfl, hspells⟩
  | rejectEncrypted =>
    obtain ⟨b, hb, rfl⟩ := map_readAs_eq_ok_iff.mp h
    exact ⟨rfl, readBool_eq_ok_iff.mp hb⟩
  | autoRedownloadFailed =>
    obtain ⟨b, hb, rfl⟩ := map_readAs_eq_ok_iff.mp h
    exact ⟨rfl, readBool_eq_ok_iff.mp hb⟩
  | databasePath =>
    obtain ⟨path, hpath, rfl⟩ := map_readAs_eq_ok_iff.mp h
    exact ⟨rfl, readQuoted_eq_ok_iff.mp hpath⟩
  | _ =>
    obtain ⟨n, hn, rfl⟩ := map_readAs_eq_ok_iff.mp h
    exact ⟨rfl, readUInt64_eq_ok_iff.mp hn⟩

theorem splitAssignment_eq_some_iff {key value : List Char} :
    splitAssignment cs = some (key, value) ↔ '=' ∉ key ∧ cs = key ++ '=' :: value := by
  constructor
  · intro h
    unfold splitAssignment at h
    split at h
    · cases h
    · rename_i d rest hdrop
      cases h
      have hequals : (d != '=') = false := by
        have hhead := List.head?_dropWhile_not (· != '=') cs
        rwa [hdrop] at hhead
      have hd : d = '=' := by simpa using hequals
      refine ⟨?_, ?_⟩
      · intro hmem
        have hne := List.mem_takeWhile_imp hmem
        simp at hne
      · subst hd
        rw [← hdrop, List.takeWhile_append_dropWhile]
  · rintro ⟨hkey, rfl⟩
    exact splitAssignment_append hkey value

theorem readLine_of_content {line key value : List Char} {k : ConfigKey} (hkey : '=' ∉ key)
    (hname : trim key = (Vocabulary.word k).toList) (h : content line = key ++ '=' :: value) :
    readLine number line = (readAssignment number (trim value) k).map some := by
  have hcontent : trim (stripComment false line) = key ++ '=' :: value := h
  have hword : Vocabulary.ofWord? ConfigKey (String.ofList (trim key)) = some k := by
    rw [hname, String.ofList_toList, Vocabulary.ofWord?_word]
  have hfull : (key ++ '=' :: value).isEmpty = false := by simp
  simp only [readLine, hcontent, hfull, splitAssignment_append hkey value, hword]
  rfl

theorem readLine_eq_ok_iff {line : List Char} {a : Option Assignment} :
    readLine number line = .ok a ↔ Holds a (content line) := by
  constructor
  · intro h
    unfold readLine at h
    simp only at h
    split at h
    · rename_i hempty
      cases h
      have hnone : content line = [] := List.isEmpty_iff.mp hempty
      rw [hnone]
      exact .nothing
    · split at h
      · cases h
      · rename_i key value hsplit
        obtain ⟨hkey, hcontent⟩ := splitAssignment_eq_some_iff.mp hsplit
        split at h
        · cases h
        · rename_i k hword
          obtain ⟨b, hb, rfl⟩ := map_eq_ok_iff.mp h
          obtain ⟨rfl, hvalue⟩ := denotes_of_readAssignment hb
          have hname : trim key = (Vocabulary.word b.key).toList := by
            rw [Vocabulary.word_of_ofWord? hword, String.toList_ofList]
          have hholds := Holds.assignment hkey hname hvalue
          rwa [← hcontent] at hholds
  · intro h
    generalize hcontent : content line = cs at h
    cases h with
    | nothing =>
      have hnone : trim (stripComment false line) = [] := hcontent
      rw [readLine, hnone]
      rfl
    | assignment hkey hname hvalue =>
      rw [readLine_of_content hkey hname hcontent, readAssignment_of_denotes hvalue]
      rfl

theorem readLines_eq_ok_iff {lines : List (List Char)} {as : List Assignment} :
    readLines number lines = .ok as ↔
      ∃ rs, List.Forall₂ Holds rs (lines.map content) ∧ as = rs.flatMap Option.toList := by
  induction lines generalizing number as with
  | nil =>
    constructor
    · intro h
      cases h
      exact ⟨[], .nil, rfl⟩
    · rintro ⟨rs, hrs, rfl⟩
      cases hrs
      rfl
  | cons line lines ih =>
    rw [readLines]
    constructor
    · intro h
      split at h
      · cases h
      · rename_i r hr
        obtain ⟨rest, hrest, rfl⟩ := map_eq_ok_iff.mp h
        obtain ⟨rs, hrs, rfl⟩ := ih.mp hrest
        exact ⟨r :: rs, .cons (readLine_eq_ok_iff.mp hr) hrs, rfl⟩
    · rintro ⟨rs, hrs, rfl⟩
      rw [List.map_cons] at hrs
      cases hrs with
      | cons hr hrs =>
        rw [readLine_eq_ok_iff.mpr hr]
        exact map_eq_ok_iff.mpr ⟨_, ih.mpr ⟨_, hrs, rfl⟩, rfl⟩

/-- The lines of a text hold these assignments, and nothing besides. -/
def Assigns (as : List Assignment) (text : List Char) : Prop :=
  ∃ rs, List.Forall₂ Holds rs ((splitLines [] text).map content) ∧ as = rs.flatMap Option.toList

theorem parse_eq_ok_iff {text : String} {c : FileConfig} :
    parse text = .ok c ↔
      ∃ as, Assigns as text.toList ∧ as.foldl FileConfig.assign {} = c ∧ c.validate = .ok () := by
  unfold parse
  constructor
  · intro h
    split at h
    · cases h
    · rename_i as has
      simp only at h
      split at h
      · cases h
      · rename_i hvalid
        cases h
        exact ⟨as, readLines_eq_ok_iff.mp has, rfl, hvalid⟩
  · rintro ⟨as, has, rfl, hvalid⟩
    rw [readLines_eq_ok_iff.mpr has]
    simp only [hvalid]

end ReleaseWarden.Config
