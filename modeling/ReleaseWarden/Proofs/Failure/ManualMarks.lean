import ReleaseWarden.Failure.Supervision
import ReleaseWarden.Proofs.Failure.Announcements
import ReleaseWarden.Proofs.History.Oldest
import ReleaseWarden.Proofs.History.Stored

/-! The two ways to declare a grab as failed: by one of its records, and by its download id. Both
announce the same albums on the same records. The details of the oldest grab are announced by the
download id always, and by a record unless that record is the oldest grab itself and the next one
tells otherwise. -/

set_option autoImplicit false

namespace ReleaseWarden

open HistoryRecord (IsOldestOf)

namespace Lookup

variable {history : Lookup} {r : HistoryRecord} {d : String}

theorem recordsBehind_of_grab (hget : history.get r.id = .ok r) (hevent : r.event = .grabbed)
    (hd : r.groupId? = some d) : history.recordsBehind r.id =
      (history.findGrabbed d).map fun grabbed => distinctBy HistoryRecord.id (r :: grabbed) := by
  unfold recordsBehind
  rw [hget]
  simp only [bind, Except.bind, hd, hevent, if_true]
  cases history.findGrabbed d with
  | error cause => rfl
  | ok grabbed => rfl

end Lookup

theorem announceManually_of_ofRecords? {skip : Bool} {records : List HistoryRecord}
    {e : FailureEvent} (h : FailureEvent.ofRecords? records manualMessage skip = some e)
    (sent : List FailureEvent) :
    announceManually .listening skip (.ok records) sent = (.ok true, sent ++ [e]) := by
  simp only [announceManually, h, Publisher.publish]

variable {s : Store} {r oldest : HistoryRecord} {d : String} {front : List HistoryRecord}

theorem distinctBy_named_last (h : (front ++ [r]).Pairwise fun a b => a.id ≠ b.id) :
    distinctBy HistoryRecord.id (r :: (front ++ [r])) = r :: front := by
  rw [distinctBy, distinctBy_eq_self h, List.filter_append]
  have hfront : front.filter (fun b => b.id ≠ r.id) = front := by
    apply List.filter_eq_self.mpr
    intro b hb
    have hne := (List.pairwise_append.mp h).2.2 b hb r (List.mem_singleton_self r)
    simpa using hne
  rw [hfront]
  simp

theorem distinctBy_named_front (h : (front ++ [oldest]).Pairwise fun a b => a.id ≠ b.id)
    (hne : oldest.id ≠ r.id) :
    distinctBy HistoryRecord.id (r :: (front ++ [oldest])) =
      (r :: front.filter fun b => b.id ≠ r.id) ++ [oldest] := by
  rw [distinctBy, distinctBy_eq_self h, List.filter_append]
  simp [hne]

theorem mem_distinctBy_named {found : List HistoryRecord} (hr : r ∈ found)
    (h : found.Pairwise fun a b => a.id ≠ b.id) (a : HistoryRecord) :
    a ∈ distinctBy HistoryRecord.id (r :: found) ↔ a ∈ found := by
  have hsame (b : HistoryRecord) : b ∈ r :: found ↔ b ∈ found := by
    rw [List.mem_cons]
    exact or_iff_right_of_imp fun hb => hb ▸ hr
  rw [mem_distinctBy_of_eq, hsame]
  intro b hb c hc hkey
  exact eq_of_mem_of_key_eq h ((hsame b).mp hb) ((hsame c).mp hc) hkey

namespace Store

/-- The grab that follows the oldest one, if there is any, is told of in the same way. -/
def NextTellsSame (s : Store) (d : String) (oldest : HistoryRecord) : Prop :=
  ∀ next, IsOldestOf (fun a => s.KeepsGrab d a ∧ a ≠ oldest) next → next.SameGrab oldest

theorem nextTellsSame_iff {next : HistoryRecord}
    (h : IsOldestOf (fun a => s.KeepsGrab d a ∧ a ≠ oldest) next) :
    s.NextTellsSame d oldest ↔ next.SameGrab oldest := by
  constructor
  · exact fun hall => hall next h
  · intro hnext other hother
    exact hother.unique h ▸ hnext

end Store

theorem ofRecords?_named (hs : s.DistinctIds) (hfind : s.find d .grabbed = .ok (front ++ [oldest]))
    (hd : Text.blank d = false) (hr : s.KeepsGrab d r) (message : String) (skip : Bool) :
    ∃ e rs, distinctBy HistoryRecord.id (r :: (front ++ [oldest])) = rs ∧
      FailureEvent.ofRecords? rs message skip = some e ∧ e.RestsOn rs message skip ∧
      e.downloadId = some d ∧
      (e.TellsOf oldest ↔ (r = oldest → s.NextTellsSame d oldest)) := by
  have hids := Store.find_distinctIds hs hfind
  obtain ⟨holdest, hfront⟩ := Store.oldest_of_find hs hfind
  have hgroup (a : HistoryRecord) (ha : s.KeepsGrab d a) : a.groupId? = some d :=
    Store.groupId?_of_keepsGrab hd ha
  by_cases heq : r = oldest
  · subst heq
    rw [distinctBy_named_last hids]
    rcases List.eq_nil_or_concat front with rfl | ⟨newer, next, hconcat⟩
    · -- The only grab: there is no next one.
      obtain ⟨e, he, htells, hrests⟩ := FailureEvent.ofRecords?_append [] r message skip
      refine ⟨e, _, rfl, he, hrests, htells.downloadId.trans (hgroup r hr), ?_⟩
      apply iff_of_true htells
      intro _ next hnext
      exact absurd ((hfront next).mpr hnext.1) List.not_mem_nil
    · rw [List.concat_eq_append] at hconcat
      subst hconcat
      obtain ⟨e, he, htells, hrests⟩ :=
        FailureEvent.ofRecords?_append (r :: newer) next message skip
      have hnext := Store.next_of_find hs hfind
      refine ⟨e, _, rfl, he, hrests, htells.downloadId.trans (hgroup next hnext.1.1), ?_⟩
      have hsame : next.groupId? = r.groupId? := by rw [hgroup next hnext.1.1, hgroup r hr]
      rw [FailureEvent.tellsOf_iff_sameGrab htells hsame, Store.nextTellsSame_iff hnext]
      simp
  · have hid : oldest.id ≠ r.id := by
      intro hid
      have hmem : r ∈ front := (hfront r).mpr ⟨hr, heq⟩
      have hne := (List.pairwise_append.mp hids).2.2 r hmem oldest (List.mem_singleton_self _)
      exact hne hid.symm
    rw [distinctBy_named_front hids hid]
    obtain ⟨e, he, htells, hrests⟩ := FailureEvent.ofRecords?_append
      (r :: front.filter fun b => b.id ≠ r.id) oldest message skip
    refine ⟨e, _, rfl, he, hrests, htells.downloadId.trans (hgroup oldest holdest.1), ?_⟩
    exact iff_of_true htells fun h => absurd h heq

/-- Both ways fail alike if the grabs cannot be read. Otherwise both announce, on the same records,
and they agree unless the record that was named is the oldest grab and the next one differs. -/
theorem marks_agree_iff (hs : s.DistinctIds) (hget : s.get r.id = .ok r)
    (hevent : r.event = .grabbed) (hd : r.groupId? = some d) (skip : Bool)
    (sent : List FailureEvent) :
    (∃ cause, s.find d .grabbed = .error cause ∧
      markByRecord s.lookup .listening r.id skip sent = (.error (.history cause), sent) ∧
      markByDownload s.lookup .listening d skip sent = (.error (.history cause), sent)) ∨
    ∃ e e' oldest, IsOldestOf (s.KeepsGrab d) oldest ∧
      markByRecord s.lookup .listening r.id skip sent = (.ok true, sent ++ [e]) ∧
      markByDownload s.lookup .listening d skip sent = (.ok true, sent ++ [e']) ∧
      e'.TellsOf oldest ∧ e.SharesRecords e' ∧
      (e.Agrees e' ↔ (r = oldest → s.NextTellsSame d oldest)) ∧
      (e.TellsOf oldest ↔ (r = oldest → s.NextTellsSame d oldest)) := by
  obtain ⟨hid, hblank⟩ := HistoryRecord.groupId?_eq_some_iff.mp hd
  have hkeeps := Store.keepsGrab_of_get hget hid hevent
  have hbehind : s.lookup.recordsBehind r.id =
      (s.find d .grabbed).map fun grabbed => distinctBy HistoryRecord.id (r :: grabbed) :=
    Lookup.recordsBehind_of_grab hget hevent hd
  have hlookup : s.lookup.findGrabbed d = s.find d .grabbed := rfl
  unfold markByRecord markByDownload
  rw [hbehind, hlookup]
  cases hfind : s.find d .grabbed with
  | error cause => exact .inl ⟨cause, rfl, rfl, rfl⟩
  | ok found =>
    have hmem (a : HistoryRecord) : a ∈ found ↔ s.KeepsGrab d a := Store.mem_find_iff hfind
    have hids := Store.find_distinctIds hs hfind
    rcases List.eq_nil_or_concat found with rfl | ⟨front, oldest, hconcat⟩
    · exact absurd ((hmem r).mpr hkeeps) List.not_mem_nil
    · rw [List.concat_eq_append] at hconcat
      subst hconcat
      obtain ⟨holdest, _⟩ := Store.oldest_of_find hs hfind
      obtain ⟨e, rs, hrs, he, hrests, hgroup, htells⟩ :=
        ofRecords?_named hs hfind hblank hkeeps manualMessage skip
      obtain ⟨e', he', htells', hrests'⟩ :=
        FailureEvent.ofRecords?_append front oldest manualMessage skip
      have hgroup' : e'.downloadId = some d :=
        htells'.downloadId.trans (Store.groupId?_of_keepsGrab hblank holdest.1)
      have hsame (a : HistoryRecord) : a ∈ rs ↔ a ∈ front ++ [oldest] :=
        hrs ▸ mem_distinctBy_named ((hmem r).mpr hkeeps) hids a
      have hshares : e.SharesRecords e' :=
        FailureEvent.sharesRecords_of_restsOn hrests hrests' hsame (hgroup.trans hgroup'.symm)
      refine .inr ⟨e, e', oldest, holdest, ?_, ?_, htells', hshares, ?_, htells⟩
      · simp only [Except.map, hrs]
        exact announceManually_of_ofRecords? he sent
      · simp only [Except.map, distinctBy_eq_self hids]
        exact announceManually_of_ofRecords? he' sent
      · rw [FailureEvent.agrees_iff_tellsOf hshares htells', htells]

def firstGrab : NewRecord where
  artistId := 7
  albumId := 1
  sourceTitle := "First"
  grade := ⟨⟨13, "FLAC"⟩, ⟨1, 0, false⟩⟩
  event := .grabbed
  downloadId := some "d"
  data := .ofList [("indexer", "A")]

def secondGrab : NewRecord :=
  { firstGrab with albumId := 2, sourceTitle := "Second", data := .ofList [("indexer", "B")] }

def earlierGrab : HistoryRecord := firstGrab.stored 1 "2024-05-01T08:00:00Z"

def laterGrab : HistoryRecord := secondGrab.stored 2 "2024-05-02T08:00:00Z"

/-- The two grabs were recorded a day apart. -/
def regrabbed : Store where
  rows := [.ofNew 1 earlierGrab.date firstGrab, .ofNew 2 laterGrab.date secondGrab]
  lastId := 2

theorem find_regrabbed : regrabbed.find "d" .grabbed = .ok [laterGrab, earlierGrab] := by
  have hnewer : regrabbed.rows.reverse.Pairwise Row.Newer := by decide +kernel
  have hall : (regrabbed.rows.filter fun r =>
      r.downloadId == some "d" && r.event == Text.Vocabulary.word HistoryEvent.grabbed) =
        regrabbed.rows := by
    apply List.filter_eq_self.mpr
    decide +kernel
  have hrows : regrabbed.rowsFor "d" .grabbed = regrabbed.rows.reverse := by
    apply Store.rowsFor_eq hnewer
    rw [hall]
    exact regrabbed.rows.reverse_perm
  have hrecords : regrabbed.rows.reverse.map Row.record = [laterGrab, earlierGrab].map .ok := by
    rw [regrabbed, List.reverse_cons, List.reverse_singleton, List.singleton_append]
    simp only [List.map_cons, List.map_nil, Row.record_ofNew]
    rfl
  rw [Store.find_eq_ok_iff, hrows]
  exact ⟨rfl, hrecords⟩

theorem distinctIds_regrabbed : regrabbed.DistinctIds := by
  unfold Store.DistinctIds
  decide

/-- Both ways agree if the later grab is named. -/
theorem marks_agree_on_later : ∃ e e',
    markByRecord regrabbed.lookup .listening laterGrab.id false [] = (.ok true, [e]) ∧
      markByDownload regrabbed.lookup .listening "d" false [] = (.ok true, [e']) ∧
      e.Agrees e' := by
  have hget : regrabbed.get laterGrab.id = .ok laterGrab :=
    Store.get_eq_ok_iff.mpr ⟨rfl, _, rfl, Row.record_ofNew 2 laterGrab.date secondGrab⟩
  have hgroup : laterGrab.groupId? = some "d" := by decide
  rcases marks_agree_iff distinctIds_regrabbed hget rfl hgroup false [] with
    ⟨cause, hfind, _⟩ | ⟨e, e', oldest, holdest, hrecord, hdownload, _, _, hagree, _⟩
  · rw [find_regrabbed] at hfind
    cases hfind
  · refine ⟨e, e', hrecord, hdownload, hagree.mpr fun heq => ?_⟩
    have hearlier : regrabbed.KeepsGrab "d" earlierGrab :=
      (Store.mem_find_iff find_regrabbed).mp (.tail _ (.head _))
    have hnewer := holdest.2 earlierGrab hearlier (heq ▸ by decide)
    exact absurd (heq ▸ hnewer) (by decide)

/-- They do not if the earlier one is: the details of the later grab are announced then. -/
theorem marks_differ_on_earlier : regrabbed.DistinctIds ∧
    regrabbed.get earlierGrab.id = .ok earlierGrab ∧ earlierGrab.event = .grabbed ∧
    earlierGrab.groupId? = some "d" ∧
    ∃ e e', markByRecord regrabbed.lookup .listening earlierGrab.id false [] = (.ok true, [e]) ∧
      markByDownload regrabbed.lookup .listening "d" false [] = (.ok true, [e']) ∧
      e.sourceTitle = "Second" ∧ e'.sourceTitle = "First" ∧ ¬ e.Agrees e' := by
  have hget : regrabbed.get earlierGrab.id = .ok earlierGrab :=
    Store.get_eq_ok_iff.mpr ⟨rfl, _, rfl, Row.record_ofNew 1 earlierGrab.date firstGrab⟩
  have hgroup : earlierGrab.groupId? = some "d" := by decide
  refine ⟨distinctIds_regrabbed, hget, rfl, hgroup, ?_⟩
  have hlookup : regrabbed.lookup.get earlierGrab.id = .ok earlierGrab := hget
  have hfind : regrabbed.lookup.findGrabbed "d" = .ok [laterGrab, earlierGrab] := find_regrabbed
  have hbehind := Lookup.recordsBehind_of_grab hlookup rfl hgroup
  unfold markByRecord markByDownload
  rw [hbehind, hfind]
  refine ⟨_, _, rfl, rfl, rfl, rfl, ?_⟩
  intro h
  exact absurd h.sourceTitle (by decide)

end ReleaseWarden
