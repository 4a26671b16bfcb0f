import ReleaseWarden.Lists.Copies
import ReleaseWarden.Proofs.Failure.Calls
import ReleaseWarden.Proofs.History.Oldest

/-! Announcing a failure that the client reports, and declaring a failure by the download id. Both
ways look at the same grabs, and if none of these is listed twice, or only in a row, they come to
the same: both break off with one error, both announce nothing, or both announce the same but for
the message and for whether the release is to be replaced. -/

set_option autoImplicit false

namespace ReleaseWarden

namespace FailureEvent

theorem ofRecords?_distinctBy {records : List HistoryRecord}
    (h : CopiesAdjoin HistoryRecord.id records) (message message' : String)
    (skipRedownload skipRedownload' : Bool) :
    ofRecords? (distinctBy HistoryRecord.id records) message' skipRedownload' =
      (ofRecords? records message skipRedownload).map fun e =>
        { e with message := message', skipRedownload := skipRedownload' } := by
  unfold ofRecords?
  rw [h.getLast?_distinctBy, increasing_map_distinctBy h.eq_of_key_eq, distinctBy_map_distinctBy]
  cases records.getLast? with
  | none => rfl
  | some grab => rfl

end FailureEvent

/-- What comes of a noted failure if it is announced, and what if the user declares it. -/
inductive ComesToSame (history : Lookup) (publisher : Publisher) (desk : Desk)
    (skipRedownload : Bool) (sent : List FailureEvent) :
    Outcome Unit Desk → Outcome Bool (List FailureEvent) → Prop
  | broken {cause : HistoryError} :
      history.findGrabbed desk.tracked.item.downloadId = .error cause →
      ComesToSame history publisher desk skipRedownload sent
        (.error (.history cause), desk) (.error (.history cause), sent)
  | nothing :
      history.findGrabbed desk.tracked.item.downloadId = .ok [] →
      ComesToSame history publisher desk skipRedownload sent (.ok (), desk) (.ok false, sent)
  | refused {r : HistoryRecord} {rs : List HistoryRecord} {cause : PublishError} :
      history.findGrabbed desk.tracked.item.downloadId = .ok (r :: rs) → publisher ≠ .listening →
      ComesToSame history publisher desk skipRedownload sent
        (.error (.publish cause), desk) (.error (.publish cause), sent)
  | announced {r : HistoryRecord} {rs : List HistoryRecord} {e : FailureEvent} :
      history.findGrabbed desk.tracked.item.downloadId = .ok (r :: rs) → publisher = .listening →
      FailureEvent.ofRecords? (r :: rs) desk.tracked.item.failureMessage false = some e →
      ComesToSame history publisher desk skipRedownload sent
        (.ok (), { tracked := { desk.tracked with state := .failed }, sent := desk.sent ++ [e] })
        (.ok true, sent ++ [{ e with message := manualMessage, skipRedownload }])

theorem Publisher.publish_alike (publisher : Publisher) (sent sent' : List FailureEvent)
    (e e' : FailureEvent) (htitle : e'.sourceTitle = e.sourceTitle) :
    publisher.publish sent e = (.ok (), sent ++ [e]) ∧
        publisher.publish sent' e' = (.ok (), sent' ++ [e']) ∧ publisher = .listening ∨
      ∃ cause, publisher.publish sent e = (.error cause, sent) ∧
        publisher.publish sent' e' = (.error cause, sent') ∧ publisher ≠ .listening := by
  cases publisher with
  | listening => exact .inl ⟨rfl, rfl, rfl⟩
  | refusing reason => exact .inr ⟨_, rfl, rfl, nofun⟩
  | closed =>
    refine .inr ⟨.channelClosed e.sourceTitle, rfl, ?_, nofun⟩
    rw [Publisher.publish, htitle]

variable {history : Lookup} {desk : Desk}

theorem comesToSame_of_copiesAdjoin (hpending : desk.tracked.state = .failedPending)
    (hcopies : ∀ found, history.findGrabbed desk.tracked.item.downloadId = .ok found →
      CopiesAdjoin HistoryRecord.id found)
    (publisher : Publisher) (skipRedownload : Bool) (sent : List FailureEvent) :
    ComesToSame history publisher desk skipRedownload sent (desk.processFailed history publisher)
      (markByDownload history publisher desk.tracked.item.downloadId skipRedownload sent) := by
  unfold Desk.processFailed markByDownload
  rw [if_pos hpending]
  cases hfind : history.findGrabbed desk.tracked.item.downloadId with
  | error cause => exact .broken hfind
  | ok found =>
    cases found with
    | nil => exact .nothing hfind
    | cons r rs =>
      obtain ⟨e, he⟩ :=
        FailureEvent.ofRecords?_cons r rs desk.tracked.item.failureMessage false
      have hmanual := FailureEvent.ofRecords?_distinctBy (hcopies _ hfind)
        desk.tracked.item.failureMessage manualMessage false skipRedownload
      rw [he, Option.map_some] at hmanual
      simp only [Except.map, announceManually, he, hmanual]
      have halike := publisher.publish_alike desk.sent sent e
        { e with message := manualMessage, skipRedownload } rfl
      rcases halike with ⟨hp, hp', hlistening⟩ | ⟨cause, hp, hp', hnot⟩
      · simp only [hp, hp']
        exact .announced hfind hlistening he
      · simp only [hp, hp']
        exact .refused hfind hnot

theorem HistoryRecord.copiesAdjoin_of_newestFirst {found : List HistoryRecord}
    (hnewest : found.Pairwise fun a b => ¬ b.Newer a)
    (heq : ∀ a ∈ found, ∀ b ∈ found, a.id = b.id → a = b) :
    CopiesAdjoin HistoryRecord.id found := by
  apply CopiesAdjoin.of_sorted hnewest heq
  intro a b hab hba
  unfold HistoryRecord.Newer at hab hba
  obtain ⟨hba', hidab⟩ := not_or.mp hab
  obtain ⟨hab', hidba⟩ := not_or.mp hba
  have hdate : a.date = b.date :=
    String.le_antisymm (String.not_lt.mp hba') (String.not_lt.mp hab')
  have hle : ¬ b.id.toInt < a.id.toInt := fun hlt => hidab ⟨hdate, hlt⟩
  have hge : ¬ a.id.toInt < b.id.toInt := fun hlt => hidba ⟨hdate.symm, hlt⟩
  exact Int64.toInt_inj.mp (by omega)

theorem Store.copiesAdjoin_of_find {s : Store} (hs : s.DistinctIds) {d : String}
    {found : List HistoryRecord} (h : s.lookup.findGrabbed d = .ok found) :
    CopiesAdjoin HistoryRecord.id found := .of_pairwise (find_distinctIds hs h)

/-- Whatever a store keeps, rows that are no records included, a noted failure comes to the same
whether it is announced or declared by the user. So it does with every history that lists a record
again only next to itself, as one does that answers newest first. -/
theorem announced_as_declared (hpending : desk.tracked.state = .failedPending)
    (publisher : Publisher) (skipRedownload : Bool) (sent : List FailureEvent) :
    (∀ s : Store, s.DistinctIds → ComesToSame s.lookup publisher desk skipRedownload sent
      (desk.processFailed s.lookup publisher)
      (markByDownload s.lookup publisher desk.tracked.item.downloadId skipRedownload sent)) ∧
    (∀ history : Lookup, (∀ found, history.findGrabbed desk.tracked.item.downloadId = .ok found →
        CopiesAdjoin HistoryRecord.id found) →
      ComesToSame history publisher desk skipRedownload sent
        (desk.processFailed history publisher)
        (markByDownload history publisher desk.tracked.item.downloadId skipRedownload sent)) ∧
    ∀ found : List HistoryRecord, (found.Pairwise fun a b => ¬ b.Newer a) →
      (∀ a ∈ found, ∀ b ∈ found, a.id = b.id → a = b) → CopiesAdjoin HistoryRecord.id found := by
  refine ⟨?_, ?_, fun found => HistoryRecord.copiesAdjoin_of_newestFirst⟩
  · intro s hs
    apply comesToSame_of_copiesAdjoin hpending
    exact fun found => s.copiesAdjoin_of_find hs
  · intro history hcopies
    exact comesToSame_of_copiesAdjoin hpending hcopies publisher skipRedownload sent

def listedGrab (id : Int64) : HistoryRecord where
  id
  artistId := 7
  albumId := 40
  sourceTitle := "Artist - Album"
  grade := ⟨⟨13, "FLAC"⟩, {}⟩
  event := .grabbed
  downloadId := some "d"
  date := "2024-05-01T08:00:00Z"

/-- The newer grab is listed twice. -/
def listing : Lookup := .ofRecords [listedGrab 2, listedGrab 2, listedGrab 1]

def listedJob : Desk where
  tracked := { item := { downloadId := "d", title := "Artist - Album" }, state := .failedPending }

/-- Either way both grabs are announced, each once. -/
theorem listedJob_announced_as_declared : listedJob.tracked.state = .failedPending ∧
    (∀ found, listing.findGrabbed "d" = .ok found → CopiesAdjoin HistoryRecord.id found) ∧
    ∃ e, (listedJob.processFailed listing .listening).2.sent = [e] ∧
      (markByDownload listing .listening "d" true []).2 =
        [{ e with message := manualMessage, skipRedownload := true }] ∧ e.historyIds = [2, 1] := by
  have hpending : listedJob.tracked.state = .failedPending := rfl
  obtain ⟨_, halike, hsorted⟩ := announced_as_declared hpending .listening true []
  have hcopies : ∀ found, listing.findGrabbed "d" = .ok found →
      CopiesAdjoin HistoryRecord.id found := by
    rintro found hfound
    cases hfound
    exact hsorted _ (by decide) (by decide)
  have hsame := halike listing hcopies
  refine ⟨hpending, hcopies, ?_⟩
  have hid : listedJob.tracked.item.downloadId = "d" := rfl
  rw [hid] at hsame
  generalize listedJob.processFailed listing .listening = reported at hsame ⊢
  generalize markByDownload listing .listening "d" true [] = declared at hsame ⊢
  cases hsame with
  | broken hfind => cases hfind
  | nothing hfind => cases hfind
  | refused _ hnot => exact absurd rfl hnot
  | @announced r rs e hfind _ he =>
    cases hfind
    cases he
    exact ⟨_, rfl, rfl, rfl⟩

end ReleaseWarden
