import BlockTheme.Proofs.Convert.Outputs

/-!
# What workers report

A worker reports in a row what became of its file, and hands on what no row is for. There are three
causes of that (`Convert.Breaks`): markup that is rejected, settings that hold something else than a
record where the thresholds belong, and a share of keys without bound. Each of them keeps the row from
being made, and nothing else does (`Convert.exists_report_iff`).

Which of the requests of a document cannot be counted depends on its keys alone, and so does how a run
ends that breaks off (`Recovery.assign_eq_error`).
-/

namespace BlockTheme

open Recovery (NothingToRecover Request Stock Thresholds targets)

/-! ## Runs that break off -/

namespace Recovery

variable {stock : Stock} {limits : Thresholds} {why : Binary64.NoCeiling}

/-- Why the keys that a request has to share cannot be counted. -/
def Request.uncounted? (limits : Thresholds) : Request → Option Binary64.NoCeiling
  | .nothing | .leaf _ _ => none
  | .container keys =>
    if keys.isEmpty then none
    else
      match limits.required (Text.distinct keys).length with
      | .ok _ => none
      | .error why => some why

/-- A step breaks off exactly if its request cannot be counted. Which leaves and containers are in
use makes no difference: the number of keys to share is asked for before the search. -/
theorem answer_eq_error {usage : Usage} {request : Request} :
    answer stock limits usage request = .error why ↔ request.uncounted? limits = some why := by
  cases request with
  | nothing => simp [answer, Request.uncounted?]
  | leaf kind key =>
    rw [answer, Request.uncounted?]
    split <;> simp
  | container keys =>
    rw [answer, Request.uncounted?, Container.find?]
    by_cases hkeys : keys.isEmpty = true
    · simp [hkeys, Except.map]
    · rw [if_neg hkeys, if_neg hkeys]
      cases limits.required (Text.distinct keys).length <;> simp [Except.map]

/-- **A run breaks off at the first request that cannot be counted**, whatever the stock is.
Thresholds and the size of the target are all that counts for it. -/
theorem assign_eq_error {usage : Usage} {requests : List Request} :
    assign stock limits usage requests = .error why
      ↔ requests.findSome? (Request.uncounted? limits) = some why := by
  -- the usage plays no part: whether a size can be counted depends on the request alone
  induction requests generalizing usage with
  | nil => simp [assign]
  | cons request rest ih =>
    rw [assign, List.findSome?_cons]
    cases hanswer : answer stock limits usage request with
    | error reason =>
      rw [answer_eq_error.1 hanswer]
      simp
    | ok answered =>
      obtain ⟨grant, usage'⟩ := answered
      have hcounted : request.uncounted? limits = none := by
        apply Option.eq_none_iff_forall_ne_some.2
        intro reason hreason
        rw [answer_eq_error.2 hreason] at hanswer
        cases hanswer
      have hrest : assign stock limits usage' rest = .error why ↔ _ := ih
      rw [hcounted, ← hrest]
      show (assign stock limits usage' rest).map (grant :: ·) = .error why ↔ _
      cases assign stock limits usage' rest with
      | ok grants => simp [Except.map]
      | error reason => simp [Except.map]

end Recovery

namespace Convert

variable {settings : Settings} {document : Document} {html css : Option String} {failure : Failure}

/-! ## Conversions that fail -/

/-- How a recovery fails when there is something to recover from. -/
inductive Fails (thresholds : Except Settings.BadThresholds Thresholds) (document : Document)
    (markup : String) : Failure → Prop
  | rejected {why : Html.Rejection} (hmarkup : Html.parse markup = .error why) :
      Fails thresholds document markup (.rejected why)
  | thresholds {trees : List Html} {why : Settings.BadThresholds}
      (hmarkup : Html.parse markup = .ok trees) (hlimits : thresholds = .error why) :
      Fails thresholds document markup (.thresholds why)
  | share {trees : List Html} {limits : Thresholds} {why : Binary64.NoCeiling}
      (hmarkup : Html.parse markup = .ok trees) (hlimits : thresholds = .ok limits)
      (hcount : (targets document).findSome? (Request.uncounted? limits) = some why) :
      Fails thresholds document markup (.share why)

section Fails

variable {thresholds : Except Settings.BadThresholds Thresholds} {markup : String}

/-- Markup that cannot be parsed fails with that, before anything else is looked at. -/
theorem fails_of_rejected {why : Html.Rejection} (hmarkup : Html.parse markup = .error why) :
    Fails thresholds document markup failure ↔ .rejected why = failure := by
  constructor
  · intro h
    cases h with
    | rejected hfail => rw [Except.error.inj (hmarkup.symm.trans hfail)]
    | thresholds hok _ => cases hmarkup.symm.trans hok
    | share hok _ _ => cases hmarkup.symm.trans hok
  · rintro rfl
    exact .rejected hmarkup

/-- With markup that can be parsed thresholds are looked at next. -/
theorem fails_of_bad {trees : List Html} {why : Settings.BadThresholds}
    (hmarkup : Html.parse markup = .ok trees) :
    Fails (.error why) document markup failure ↔ .thresholds why = failure := by
  constructor
  · intro h
    cases h with
    | rejected hfail => cases hmarkup.symm.trans hfail
    | thresholds _ hbad => rw [Except.error.inj hbad]
    | share _ hgood _ => cases hgood
  · rintro rfl
    exact .thresholds hmarkup rfl

/-- With markup and thresholds in order, a recovery fails if a share is too large to count with, and
it does so at the first request that has to do with the share. -/
theorem fails_of_parsed {trees : List Html} {limits : Thresholds}
    (hmarkup : Html.parse markup = .ok trees) :
    Fails (.ok limits) document markup failure
      ↔ ∃ why, (targets document).findSome? (Request.uncounted? limits) = some why
        ∧ .share why = failure := by
  constructor
  · intro h
    cases h with
    | rejected hfail => cases hmarkup.symm.trans hfail
    | thresholds _ hbad => cases hbad
    | share _ hgood hcount =>
      cases hgood
      exact ⟨_, hcount, rfl⟩
  · rintro ⟨why, hcount, rfl⟩
    exact .share hmarkup rfl hcount

/-- **A recovery fails in three ways**, and only if there is something to recover from: the markup
is rejected, the thresholds are bad, or a share of them cannot be counted with. -/
theorem recovered?_eq_error :
    recovered? thresholds document html css = .error failure
      ↔ ¬NothingToRecover document html css
        ∧ Fails thresholds document (html.getD "") failure := by
  have hdefined : Recovery.definedClasses ((stylesheet document css).getD "")
      = Recovery.definedFor document css := rfl
  unfold recovered?
  simp only [hdefined]
  by_cases hskip : NothingToRecover document html css
  · rw [if_pos (Recovery.skips_iff.2 hskip)]
    simp [hskip]
  · rw [if_neg fun h => hskip (Recovery.skips_iff.1 h)]
    simp only [hskip, not_false_eq_true, true_and]
    rw [Stock.ofMarkup]
    cases hmarkup : Html.parse (html.getD "") with
    | error why =>
      rw [fails_of_rejected hmarkup]
      show Except.error (Failure.rejected why) = .error failure ↔ _
      rw [Except.error.injEq]
    | ok trees =>
      cases thresholds with
      | error why =>
        rw [fails_of_bad hmarkup]
        show Except.error (Failure.thresholds why) = .error failure ↔ _
        rw [Except.error.injEq]
      | ok limits =>
        rw [fails_of_parsed hmarkup]
        simp only [Except.map, Recovery.recover]
        cases hrun : Recovery.assign
          ⟨Recovery.LeafIndex.ofTags (Html.tagsOf trees) (Recovery.definedFor document css),
            Recovery.Container.ofTags (Html.tagsOf trees) (Recovery.definedFor document css)⟩
          limits {} (targets document) with
        | ok grants =>
          -- a run that ends counts all its requests
          have hcounted : ∀ why,
              (targets document).findSome? (Request.uncounted? limits) ≠ some why := by
            intro why hcount
            cases hrun.symm.trans (Recovery.assign_eq_error.2 hcount)
          simp [hcounted]
        | error why =>
          rw [Recovery.assign_eq_error.1 hrun]
          simp

end Fails

/-- A conversion fails exactly if the class names are to be recovered and that fails. Rendering and
the files of the theme never fail. -/
theorem convert_eq_error :
    convert settings document html css = .error failure
      ↔ isRecovering settings = true ∧ ¬NothingToRecover document html css
        ∧ Fails settings.thresholds document (html.getD "") failure := by
  rw [← recovered?_eq_error]
  unfold convert prepared
  by_cases hrecovering : isRecovering settings = true
  · rw [if_pos hrecovering]
    simp only [hrecovering, true_and]
    cases recovered? settings.thresholds document html css <;> simp [Except.map]
  · rw [if_neg hrecovering]
    simp [hrecovering, Except.map]

end Convert

/-! ## Settings without thresholds -/

namespace Settings

/-- Where the thresholds belong, the settings have something that is no record. -/
def MisplacesThresholds (settings : Settings) : Prop :=
  (settings.get "reconciler" (.record [])).isGiven = true
    ∧ (settings.get "reconciler" (.record [])).members? = none

/-- Thresholds are looked for in a record, and this fails exactly if something else is in its place.
-/
theorem thresholds_eq_noRecord_iff {settings : Settings} :
    settings.thresholds = .error .noRecord ↔ settings.MisplacesThresholds := by
  unfold thresholds MisplacesThresholds
  generalize settings.get "reconciler" (.record []) = found
  by_cases hgiven : found.isGiven = true
  · simp only [hgiven, if_true, true_and]
    cases found with
    | record members =>
      cases hmembers : Recovery.Thresholds.ofFields (Data.jsonMembers members) <;>
        simp [Data.members?, hmembers]
    | _ => simp [Data.members?]
  · simp only [hgiven]
    cases hdefault : Recovery.Thresholds.ofFields (Data.jsonMembers []) <;> simp [hdefault]

end Settings

/-! ## Rows -/

namespace Row

/-- A row reports a file: it names the file, and says that its document was converted or that it was
not. -/
def Reports (path : Path) (row : Row) : Prop :=
  Fields.get? row "source" = some (.string path.text)
    ∧ (Fields.get? row "status" = some (.string "ok")
      ∨ Fields.get? row "status" = some (.string "failed"))

/-- A row for a failure names the document that failed. -/
theorem reports_failed (path : Path) (message : String) : Reports path (failed path message) :=
  ⟨rfl, .inr rfl⟩

theorem reports_converted (path out : Path) (bundle : Bundle) :
    Reports path (converted path out bundle) :=
  ⟨rfl, .inl rfl⟩

theorem Reports.source_eq {path : Path} {row : Row} (h : Reports path row) :
    row.source = path.text := by
  rw [source, h.1]

/-- A row that was made for a file: its document was converted, or it was not. -/
inductive MadeFor (path : Path) : Row → Prop
  | converted (out : Path) (bundle : Bundle) : MadeFor path (converted path out bundle)
  | failed (message : String) : MadeFor path (failed path message)

theorem MadeFor.reports {path : Path} {row : Row} (h : MadeFor path row) : Reports path row := by
  cases h with
  | converted out bundle => exact reports_converted path out bundle
  | failed message => exact reports_failed path message

end Row

namespace Convert

variable {settings : Settings} {document : Document} {html css : Option String}
  {out path : Path} {files : Files} {why : FileFailure}

/-! ## Workers -/

/-- What a worker converts: the document in a file, and the markup and the stylesheet beside it. -/
structure Reads (files : Files) (path : Path) (document : Document) (html css : Option String) :
    Prop where
  document_eq : load files path = .ok document
  html_eq : sibling? files path ".html" = .ok html
  css_eq : sibling? files path ".css" = .ok css

/-- A document that cannot be loaded is reported in its row, whatever the reason. -/
theorem isReported_of_load (h : load files path = .error why) : why.isReported = true := by
  unfold load at h
  split at h
  · cases h
    rfl
  · split at h
    · cases h
    · cases h
      rfl

theorem isReported_of_sibling {suffix : String} (h : sibling? files path suffix = .error why) :
    why.isReported = true := by
  unfold sibling? at h
  split at h
  · next cause _ =>
    cases h
    cases cause <;> rfl
  · split at h <;> cases h
    rfl

/-- No failure of reading is handed on, so one that is comes from converting what was read. The
document and the two texts beside it are read first, and a worker has a row for each way in which
this fails. -/
theorem bundleOf_eq_error (hhanded : why.isReported = false) :
    bundleOf settings files path = .error why
      ↔ ∃ document html css, Reads files path document html css
        ∧ ∃ failure, convert settings document html css = .error failure
          ∧ .conversion failure = why := by
  constructor
  · intro h
    unfold bundleOf at h
    -- the first three steps fail in ways that are reported
    cases hload : load files path with
    | error cause =>
      rw [hload] at h
      cases h
      exact absurd (isReported_of_load hload) (by simp [hhanded])
    | ok document =>
      cases hhtml : sibling? files path ".html" with
      | error cause =>
        rw [hload, hhtml] at h
        cases h
        exact absurd (isReported_of_sibling hhtml) (by simp [hhanded])
      | ok html =>
        cases hcss : sibling? files path ".css" with
        | error cause =>
          rw [hload, hhtml, hcss] at h
          cases h
          exact absurd (isReported_of_sibling hcss) (by simp [hhanded])
        | ok css =>
          refine ⟨document, html, css, ⟨hload, hhtml, hcss⟩, ?_⟩
          rw [hload, hhtml, hcss] at h
          cases hconvert : convert settings document html css with
          | ok bundle => simp [bind, Except.bind, hconvert] at h
          | error failure =>
            refine ⟨failure, rfl, ?_⟩
            simpa [bind, Except.bind, hconvert] using h
  -- if all was read, the conversion fails as it does by itself
  · rintro ⟨document, html, css, hreads, failure, hfailure, rfl⟩
    unfold bundleOf
    rw [hreads.document_eq, hreads.html_eq, hreads.css_eq]
    simp [bind, Except.bind, hfailure]

/-- What a worker hands on is what reading and converting ended with, and no row is for. Failures to
write are refusals of the file system, and for these there is a row. -/
theorem work_eq_error :
    (work settings out files path).2 = .error why
      ↔ bundleOf settings files path = .error why ∧ why.isReported = false := by
  unfold work convertFile
  cases hbundle : bundleOf settings files path with
  | error cause =>
    show (if cause.isReported then Except.ok (Row.failed path cause.message) else .error cause)
      = .error why ↔ _
    -- a failure that is reported makes a row
    by_cases hreported : cause.isReported = true
    · rw [if_pos hreported]
      constructor
      · rintro ⟨⟩
      · rintro ⟨⟨⟩, hhanded⟩
        rw [hreported] at hhanded
        cases hhanded
    · rw [if_neg hreported]
      constructor
      · rintro ⟨⟩
        exact ⟨rfl, by simpa using hreported⟩
      · rintro ⟨⟨⟩, -⟩
        rfl
  | ok bundle =>
    dsimp only
    -- writing fails by reported failures only
    rcases writeBundle files out bundle with ⟨written, _ | cause⟩
    · simp
    · simp [FileFailure.isReported]

/-- Whatever row a worker ends with was made for its file: it has the path as its source, and the
rest is what the conversion came to or the message of the failure. -/
theorem madeFor_work {row : Row} (h : (work settings out files path).2 = .ok row) :
    row.MadeFor path := by
  unfold work convertFile at h
  cases hbundle : bundleOf settings files path with
  -- a failure gives a row if it is one of those that are reported
  | error cause =>
    rw [hbundle] at h
    dsimp only at h
    split at h
    · cases h
      exact .failed cause.message
    · cases h
  -- so does a failure to write, and a bundle that is written gives the row of its counts
  | ok bundle =>
    rw [hbundle] at h
    dsimp only at h
    rcases hwritten : writeBundle files out bundle with ⟨written, _ | cause⟩
    · rw [hwritten] at h
      cases h
      exact .converted out bundle
    · rw [hwritten] at h
      dsimp only at h
      split at h
      · cases h
        exact .failed _
      · cases h

/-- A row that a worker makes reports its document. -/
theorem reports_work {row : Row} (h : (work settings out files path).2 = .ok row) :
    row.Reports path := (madeFor_work h).reports

/-! ## Workers without a row -/

/-- How recovering class names keeps a row from being made. -/
inductive Breaks (settings : Settings) (document : Document) (markup : String) : Prop
  /-- The markup is rejected, and not for a number in it. -/
  | markup {why : Html.Rejection} (hrejected : Html.parse markup = .error why)
      (hmarkup : why.isOfNumber = false)
  /-- The markup is read, and the settings have no record for the thresholds. -/
  | settings {trees : List Html} (hparsed : Html.parse markup = .ok trees)
      (hmisplaced : settings.MisplacesThresholds)
  /-- The markup is read, and the first request that cannot be counted shares a part of its keys
  without bound. -/
  | share {trees : List Html} {limits : Thresholds} (hparsed : Html.parse markup = .ok trees)
      (hlimits : settings.thresholds = .ok limits)
      (hcount : (targets document).findSome? (Request.uncounted? limits) = some .infinite)

/-- What breaks a batch is a failure that no worker reports: markup that is rejected for a marked
section, thresholds that are no record, and a share without a bound. -/
theorem breaks_iff {markup : String} :
    Breaks settings document markup
      ↔ ∃ failure, Fails settings.thresholds document markup failure
        ∧ (FileFailure.conversion failure).isReported = false := by
  constructor
  · rintro (⟨hrejected, hmarkup⟩ | ⟨hparsed, hmisplaced⟩ | ⟨hparsed, hlimits, hcount⟩)
    · exact ⟨.rejected _, .rejected hrejected, hmarkup⟩
    · exact ⟨.thresholds .noRecord,
        .thresholds hparsed (Settings.thresholds_eq_noRecord_iff.2 hmisplaced), rfl⟩
    · exact ⟨.share .infinite, .share hparsed hlimits hcount, rfl⟩
  · rintro ⟨failure, hfails, hhanded⟩
    cases hfails with
    | rejected hmarkup => exact .markup hmarkup hhanded
    | @thresholds trees why hmarkup hlimits =>
      cases why with
      | noRecord => exact .settings hmarkup (Settings.thresholds_eq_noRecord_iff.1 hlimits)
      | invalid issues => cases hhanded
    | @share trees limits why hmarkup hlimits hcount =>
      cases why with
      | infinite => exact .share hmarkup hlimits hcount
      | notANumber => cases hhanded

/-- A marked section with a word that no section has is rejected. -/
example : Html.parse "<![x>" = .error (.unknownKeyword ['x']) := by rfl

end Convert

end BlockTheme
