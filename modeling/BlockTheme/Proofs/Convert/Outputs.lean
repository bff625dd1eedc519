import BlockTheme.Proofs.Convert.Placement
import BlockTheme.Proofs.Convert.Targets
import BlockTheme.Proofs.Recovery.Outcome

/-!
# The themes of a batch

Whatever the order in which its workers run, a batch reports a document as converted only if all
files of its theme are there in the end (`Pool.theme_of_isOk`). Each of them holds the document's own
text if no other document of the same slug has another text for it. Documents of one slug share a
directory, so without that condition texts are lost (`Pool.exists_lost_text`).
-/

namespace BlockTheme

open BlockTheme.Convert (Stage)

namespace Pool

variable (settings : Settings) (out : Path) (pool : Pool)

/-! ## What a worker has read -/

/-- Something was true of the files when an order of calls had been made up to some point. -/
def Seen (order : List Nat) (property : Files → Prop) : Prop :=
  ∃ earlier, earlier <+: order ∧ property (pool.run settings out earlier).files

/-- A theme is what a document converts to, with the markup and the stylesheet beside it, each as it
was at some point. -/
def Converts (order : List Nat) (path : Path) (bundle : Bundle) : Prop :=
  ∃ document html css,
    pool.Seen settings out order (fun files => Convert.load files path = .ok document)
      ∧ pool.Seen settings out order (fun files => Convert.sibling? files path ".html" = .ok html)
      ∧ pool.Seen settings out order (fun files => Convert.sibling? files path ".css" = .ok css)
      ∧ convert settings document html css = .ok bundle

/-- What a worker knows comes from what it has read. -/
def Origin (order : List Nat) (path : Path) : Stage → Prop
  | .loaded document =>
    pool.Seen settings out order (fun files => Convert.load files path = .ok document)
  | .marked document html =>
    pool.Seen settings out order (fun files => Convert.load files path = .ok document)
      ∧ pool.Seen settings out order (fun files => Convert.sibling? files path ".html" = .ok html)
  | stage => ∀ bundle, stage.bundle? = some bundle → pool.Converts settings out order path bundle

variable {settings out pool} {order : List Nat} {path : Path} {stage : Stage}

/-- What was seen in the course of an order was seen in the course of a longer one. -/
theorem Seen.concat {property : Files → Prop} (h : pool.Seen settings out order property) (i : Nat) :
    pool.Seen settings out (order ++ [i]) property := by
  obtain ⟨earlier, hprefix, hproperty⟩ := h
  exact ⟨earlier, hprefix.trans (List.prefix_append _ _), hproperty⟩

theorem Seen.now (property : Files → Prop) (h : property (pool.run settings out order).files)
    (i : Nat) : pool.Seen settings out (order ++ [i]) property :=
  ⟨order, List.prefix_append _ _, h⟩

theorem Converts.concat {bundle : Bundle} (h : pool.Converts settings out order path bundle)
    (i : Nat) : pool.Converts settings out (order ++ [i]) path bundle := by
  obtain ⟨document, html, css, hload, hhtml, hcss, hconvert⟩ := h
  exact ⟨document, html, css, hload.concat i, hhtml.concat i, hcss.concat i, hconvert⟩

/-- A stage keeps its origin whatever steps other workers take after it. -/
theorem Origin.concat (h : pool.Origin settings out order path stage) (i : Nat) :
    pool.Origin settings out (order ++ [i]) path stage := by
  cases stage with
  | loaded document =>
    have hload : pool.Seen settings out order
        (fun files => Convert.load files path = .ok document) := h
    exact hload.concat i
  | marked document html => exact ⟨h.1.concat i, h.2.concat i⟩
  | waiting | writing | filling | finished | stopped =>
    exact fun bundle hbundle => (h bundle hbundle).concat i

/-- A stage that has a bundle has it from a conversion. -/
theorem origin_of_bundle? {bundle : Bundle} (hbundle : stage.bundle? = some bundle)
    (h : pool.Converts settings out order path bundle) :
    pool.Origin settings out order path stage := by
  cases stage with
  | waiting | loaded | marked => cases hbundle
  | writing | filling | finished | stopped =>
    intro other hother
    obtain rfl := Option.some.inj (hbundle.symm.trans hother)
    exact h

/-- A worker that stopped without a bundle needs no origin. -/
theorem origin_stopped (why : Convert.FileFailure) :
    pool.Origin settings out order path (.stopped none why) := by
  intro bundle hbundle
  cases hbundle

/-- One step of a worker: reading makes the bundle from the files as they are now, and from then on
the bundle is carried along. This is the step of the induction over the order. -/
theorem Origin.advance (h : pool.Origin settings out order path stage) (i : Nat) :
    pool.Origin settings out (order ++ [i]) path
      (Convert.advance settings out path (pool.run settings out order).files stage).2 := by
  have hcall := Convert.call_advance settings out path (pool.run settings out order).files stage
  cases stage with
  -- the document is read now
  | waiting =>
    rw [Convert.advance]
    split
    · exact origin_stopped _
    · next document hload =>
      exact Seen.now (fun files => Convert.load files path = .ok document) hload i
  -- it was read before, and the markup is read now
  | loaded document =>
    have hload : pool.Seen settings out order
        (fun files => Convert.load files path = .ok document) := h
    rw [Convert.advance]
    split
    · exact origin_stopped _
    · next html hhtml =>
      exact ⟨hload.concat i,
        Seen.now (fun files => Convert.sibling? files path ".html" = .ok html) hhtml i⟩
  | marked document html =>
    rw [Convert.advance]
    split
    · exact origin_stopped _
    · next css hcss =>
      split
      · exact origin_stopped _
      · next bundle hconvert =>
        exact origin_of_bundle? rfl ⟨document, html, css, h.1.concat i, h.2.concat i,
          Seen.now (fun files => Convert.sibling? files path ".css" = .ok css) hcss i,
          hconvert⟩
  -- the bundle is carried along
  | writing bundle | filling bundle | finished bundle =>
    exact origin_of_bundle? (hcall.bundle? rfl) ((h bundle rfl).concat i)
  | stopped bundle why => exact Origin.concat h i

/-- **Every worker has its own document**, and its theme is what that converts to. By induction on
the steps of a run, with `Origin.advance` for the worker whose turn it is and `Origin.concat` for
the others. -/
theorem origin_run (settings : Settings) (out : Path) (files : Files) (paths : List Path)
    (order : List Nat) {i : Nat} {path : Path} {stage : Stage}
    (h : ((start files paths).run settings out order).workers[i]? = some (path, stage)) :
    paths[i]? = some path ∧ (start files paths).Origin settings out order path stage := by
  induction order using List.reverseRecOn generalizing i path stage with
  | nil =>
    rw [run, List.foldl_nil, start, List.getElem?_map] at h
    obtain ⟨own, hown, hworker⟩ := Option.map_eq_some_iff.1 h
    obtain ⟨rfl, rfl⟩ := Prod.mk.inj hworker
    exact ⟨hown, fun _ hbundle => by cases hbundle⟩
  | append_singleton order j ih =>
    rw [run_concat] at h
    cases hj : ((start files paths).run settings out order).workers[j]? with
    | none =>
      rw [step, hj] at h
      exact ⟨(ih h).1, (ih h).2.concat j⟩
    | some worker =>
      obtain ⟨own, old⟩ := worker
      rw [step_eq hj] at h
      by_cases hi : i = j
      -- the worker whose turn it was
      · subst hi
        obtain ⟨hlt, -⟩ := List.getElem?_eq_some_iff.1 hj
        rw [List.getElem?_set_self hlt] at h
        obtain ⟨rfl, rfl⟩ := Prod.mk.inj (Option.some.inj h)
        exact ⟨(ih hj).1, (ih hj).2.advance i⟩
      · rw [List.getElem?_set_ne (Ne.symm hi)] at h
        exact ⟨(ih h).1, (ih h).2.concat j⟩

/-- The theme of a worker is what its document converts to. -/
theorem converts_of_stage? {files : Files} {paths : List Path} {i : Nat} {bundle : Bundle}
    (hstage : ((start files paths).run settings out order).stage? i = some stage)
    (hbundle : stage.bundle? = some bundle) :
    ∃ path, paths[i]? = some path ∧ (start files paths).Converts settings out order path bundle := by
  obtain ⟨⟨path, own⟩, hworker, rfl⟩ := Option.map_eq_some_iff.1 hstage
  obtain ⟨hpath, horigin⟩ := origin_run settings out files paths order hworker
  refine ⟨path, hpath, ?_⟩
  cases own with
  | waiting | loaded | marked => cases hbundle
  | writing | filling | finished | stopped => exact horigin bundle hbundle

/-- A bundle that was made by a conversion has the files of one. -/
theorem Converts.made {bundle : Bundle} (h : pool.Converts settings out order path bundle) :
    bundle.Made := by
  obtain ⟨_, _, css, -, -, -, hconvert⟩ := h
  obtain ⟨document, -, hbundle⟩ := Recovery.convert_eq_ok hconvert
  exact ⟨document, css, hbundle⟩

/-! ## Rows -/

theorem isOk_failed (path : Path) (message : String) : (Row.failed path message).isOk = false := rfl

/-- The row of a conversion names the directory of the theme. -/
theorem output_converted (path out : Path) (bundle : Bundle) :
    (Row.converted path out bundle).get? "output"
      = some (.string (Convert.themeDirectory out bundle).text) := rfl

/-- A row that reports success is the row of a worker that has finished. Workers that stopped have
rows of failures, and sorting the rows adds none. -/
theorem exists_finished_of_isOk {row : Row} (hrow : row ∈ (Batch.ofRows (pool.rows out)).rows)
    (hok : row.isOk = true) :
    ∃ (i : Nat) (path : Path) (bundle : Bundle),
      pool.workers[i]? = some (path, .finished bundle)
        ∧ row = Row.converted path out bundle := by
  have hmem : row ∈ pool.rows out := List.mem_mergeSort.1 hrow
  obtain ⟨⟨path, stage⟩, hworker, hstage⟩ := List.mem_filterMap.1 hmem
  obtain ⟨i, hi⟩ := List.getElem?_of_mem hworker
  cases stage with
  | finished bundle => exact ⟨i, path, bundle, hi, (Option.some.inj hstage).symm⟩
  | stopped bundle why =>
    obtain rfl := Option.some.inj hstage
    rw [isOk_failed] at hok
    cases hok
  | waiting | loaded | marked | writing | filling => cases hstage

/-- When all workers have come to their ends, no file is open. -/
theorem IsDone.not_filling (h : pool.IsDone out) (place : Location) : ¬pool.Filling place := by
  rintro ⟨i, bundle, text, todo, hi⟩
  obtain ⟨worker, hworker, hstage⟩ := Option.map_eq_some_iff.1 hi
  have hrow := h worker (List.mem_of_getElem? hworker)
  rw [hstage] at hrow
  cases hrow

/-! ## Two documents of one slug -/

/-- The text of a document. -/
def cardText : String :=
  "\x7b\"metadata\":\x7b\"title\":\"A\"\x7d,\"designTokens\":\x7b\"colors\":\x7b\"primary\":\"\","
    ++ "\"secondary\":\"\",\"background\":\"\",\"foreground\":\"\"\x7d\x7d,"
    ++ "\"sections\":[\x7b\"layout\":\x7b\"type\":\"grid\"\x7d\x7d]\x7d"

/-- Two files with one text, and a stylesheet beside the first one. -/
def twoCards (text : List Char) : Files where
  current := []
  entries :=
    [(["a.json"], .file (Text.Utf8.encode text)), (["b.json"], .file (Text.Utf8.encode text)),
      (["a.css"], .file (Text.Utf8.encode ['p']))]

/-- Two documents in one directory. -/
def cardPaths : List Path := [⟨0, ["a.json"]⟩, ⟨0, ["b.json"]⟩]

/-- The directory for both themes. -/
def cardOut : Path := ⟨0, ["out"]⟩

/-- Where the stylesheets of both themes belong. -/
def cardSheet : Path := ⟨0, ["out", "a", "assets", "css", "custom.css"]⟩

/-- The two files have been converted, one after the other. -/
def afterCards (text : List Char) : Pool :=
  (start (twoCards text) cardPaths).run Settings.shipped cardOut
    (List.replicate 27 0 ++ List.replicate 26 1)

/-- The path and the text of a file in the theme of a worker that has finished. -/
def reported? (out : Path) (name : String) : Stage → Option (Path × String)
  | .finished bundle =>
    (bundle.files.lookup name).map fun text => (Bundle.target out bundle name, text)
  | _ => none

/-- What is reported is a file of a bundle whose worker is done. -/
theorem reported?_eq_some {out path : Path} {name text : String} {stage : Stage}
    (h : reported? out name stage = some (path, text)) :
    ∃ bundle, stage = .finished bundle ∧ (name, text) ∈ bundle.files
      ∧ path = Bundle.target out bundle name := by
  cases stage with
  | finished bundle =>
    obtain ⟨_, hlookup, hpair⟩ := Option.map_eq_some_iff.1 h
    obtain ⟨rfl, rfl⟩ := Prod.mk.inj hpair
    obtain ⟨before, after, hfiles, -⟩ := List.lookup_eq_some_iff.1 hlookup
    exact ⟨bundle, rfl, by simp [hfiles], rfl⟩
  | waiting | loaded | marked | writing | filling | stopped => cases h

/-- The stylesheets of the two themes differ and share their place, where the second one stands in
the end. The declarations of the two themes are the same. -/
def CardsReported (pool : Pool) : Prop :=
  pool.workers.map (fun worker => reported? cardOut "assets/css/custom.css" worker.2)
      = [some (cardSheet, Theme.stylesheetHeader ++ "p\n"),
        some (cardSheet, Theme.stylesheetHeader)]
    ∧ (pool.files.find cardSheet).toOption
      = some (some (.file (Text.Utf8.encode Theme.stylesheetHeader.toList)))
    ∧ ((pool.stage? 0).bind (reported? cardOut "style.css")).isSome
    ∧ pool.workers.map (fun worker => reported? cardOut "style.css" worker.2)
      = List.replicate 2 ((pool.stage? 0).bind (reported? cardOut "style.css"))

instance (pool : Pool) : Decidable (CardsReported pool) :=
  inferInstanceAs (Decidable (_ ∧ _ ∧ _ ∧ _))

set_option maxRecDepth 4096 in
theorem cardsReported_afterCards : CardsReported (afterCards cardText.toList) := by
  -- evaluation starts from the characters of the text, which its literals give at once
  have hchars : ∃ front middle back,
      cardText = String.ofList front ++ String.ofList middle ++ String.ofList back
        ∧ CardsReported (afterCards (front ++ middle ++ back)) :=
    ⟨_, _, _, rfl, by decide +kernel⟩
  obtain ⟨front, middle, back, htext, hreported⟩ := hchars
  rw [htext, String.toList_append, String.toList_append, String.toList_ofList,
    String.toList_ofList, String.toList_ofList]
  exact hreported

/-- Both workers have finished, and they have one text for their declarations, since their documents
have the same title. So this file is undisputed, as the stylesheet of the two is not. -/
theorem exists_declaration_afterCards :
    ∃ text, ∀ worker ∈ (afterCards cardText.toList).workers,
      ∃ bundle, worker.2 = .finished bundle ∧ ("style.css", text) ∈ bundle.files := by
  obtain ⟨-, -, hdeclared, hdeclarations⟩ := cardsReported_afterCards
  obtain ⟨⟨path, text⟩, hfirst⟩ := Option.isSome_iff_exists.1 hdeclared
  refine ⟨text, fun worker hworker => ?_⟩
  have hreported : reported? cardOut "style.css" worker.2
      ∈ List.replicate 2 (some (path, text)) := by
    rw [← hfirst, ← hdeclarations]
    exact List.mem_map.2 ⟨worker, hworker, rfl⟩
  obtain ⟨bundle, hstage, hfile, -⟩ := reported?_eq_some (List.eq_of_mem_replicate hreported)
  exact ⟨bundle, hstage, hfile⟩

theorem isDone_afterCards : (afterCards cardText.toList).IsDone cardOut := by
  intro worker hworker
  obtain ⟨text, hworkers⟩ := exists_declaration_afterCards
  obtain ⟨bundle, hstage, -⟩ := hworkers worker hworker
  rw [hstage]
  rfl

/-- The first document is reported as converted, with its own stylesheet in its theme. That this is
not the text that is found there in the end is what `exists_lost_text` adds. -/
theorem exists_converted_afterCards :
    ∃ path bundle,
      (afterCards cardText.toList).workers[0]? = some (path, .finished bundle)
        ∧ ("assets/css/custom.css", Theme.stylesheetHeader ++ "p\n") ∈ bundle.files
        ∧ cardSheet = Bundle.target cardOut bundle "assets/css/custom.css"
        ∧ Row.converted path cardOut bundle
          ∈ (Batch.ofRows ((afterCards cardText.toList).rows cardOut)).rows := by
  obtain ⟨hsheets, -⟩ := cardsReported_afterCards
  have hfirst := congrArg (fun found => found[0]?) hsheets
  rw [List.getElem?_map] at hfirst
  obtain ⟨⟨path, stage⟩, hworker, hpair⟩ := Option.map_eq_some_iff.1 hfirst
  obtain ⟨bundle, rfl, hfile, htarget⟩ := reported?_eq_some hpair
  exact ⟨path, bundle, hworker, hfile, htarget, List.mem_mergeSort.2
    (List.mem_filterMap.2 ⟨_, List.mem_of_getElem? hworker, rfl⟩)⟩

/-! ## Themes -/

/-- No other worker with a theme of this slug has another text under this name. -/
def Undisputed (pool : Pool) (i : Nat) (slug name text : String) : Prop :=
  ∀ {j stage theme other}, j ≠ i → pool.stage? j = some stage → stage.bundle? = some theme →
    theme.slug = slug → (name, other) ∈ theme.files → other = text

/-- What is undisputed is all that any worker has for its place. A claim on the place comes from a
worker with the same slug and a file of the same name. -/
theorem Undisputed.eq_of_claims {files : Files} {paths : List Path} {i : Nat} {bundle : Bundle}
    {name text other : String}
    (hstage : ((start files paths).run settings out order).stage? i = some stage)
    (hbundle : stage.bundle? = some bundle) (hfile : (name, text) ∈ bundle.files)
    (h : ((start files paths).run settings out order).Undisputed i bundle.slug name text)
    (hclaims : ((start files paths).run settings out order).Claims out
      (((start files paths).run settings out order).files.destination
        (Bundle.target out bundle name)) other) :
    other = text := by
  obtain ⟨j, held, theme, path, hheld, htheme, hwrites, hplace⟩ := hclaims
  obtain ⟨name', hfile', rfl⟩ := Bundle.mem_writes_iff.1 hwrites
  -- both themes were made of documents, so that a place tells slug and name
  obtain ⟨_, -, hconverts⟩ := converts_of_stage? hstage hbundle
  obtain ⟨_, -, hconverts'⟩ := converts_of_stage? hheld htheme
  obtain ⟨hslug, rfl⟩ :=
    hconverts'.made.eq_of_destination_eq hconverts.made _ out hfile' hfile hplace
  by_cases hj : j = i
  · subst hj
    obtain rfl := Option.some.inj (hstage.symm.trans hheld)
    obtain rfl := Option.some.inj (hbundle.symm.trans htheme)
    exact hconverts.made.text_unique hfile' hfile
  · exact h hj hheld htheme hslug hfile'

/-- **A document that is reported as converted has its theme.** After any order of calls that brings
all workers to their ends, a row of the batch that reports success is that of a worker that
has finished, and it names a directory with all files of the worker's theme. Each of them holds the
worker's own text, unless another document of the same slug has another text for that file. -/
theorem theme_of_isOk {settings : Settings} {out : Path} {files : Files} {paths : List Path}
    {order : List Nat} {pool : Pool} (hrun : (start files paths).run settings out order = pool)
    (hdone : pool.IsDone out) {row : Row} (hrow : row ∈ (Batch.ofRows (pool.rows out)).rows)
    (hok : row.isOk = true) :
    ∃ (i : Nat) (path : Path) (bundle : Bundle),
      pool.workers[i]? = some (path, .finished bundle)
      ∧ paths[i]? = some path
      ∧ (start files paths).Converts settings out order path bundle
      ∧ row = Row.converted path out bundle
      ∧ row.get? "output" = some (.string (Convert.themeDirectory out bundle).text)
      ∧ ∀ {name text}, (name, text) ∈ bundle.files →
        ∃ content, pool.files.find (Bundle.target out bundle name) = .ok (some (.file content))
          ∧ (pool.Undisputed i bundle.slug name text →
            content = Text.Utf8.encode text.toList) := by
  subst hrun
  obtain ⟨i, path, bundle, hworker, rfl⟩ := exists_finished_of_isOk hrow hok
  have hstage : ((start files paths).run settings out order).stage? i = some (.finished bundle) :=
    Option.map_eq_some_iff.2 ⟨_, hworker, rfl⟩
  obtain ⟨hpath, horigin⟩ := origin_run settings out files paths order hworker
  refine ⟨i, path, bundle, hworker, hpath, horigin bundle rfl, rfl,
    output_converted path out bundle, fun {name text} hfile => ?_⟩
  -- a worker that has finished has nothing left to open
  have hheld : ((start files paths).run settings out order).Held out bundle [] :=
    sound_run settings out files paths order hstage
  obtain ⟨place, content, hlocate, hat, hcontent⟩ :=
    (hheld.reached (Bundle.mem_writes_iff.2 ⟨name, hfile, rfl⟩)).resolve_left List.not_mem_nil
  refine ⟨content, by rw [Files.find, hlocate, Except.map, hat], fun hundisputed => ?_⟩
  obtain rfl := Files.locate_eq_ok hlocate
  rcases hcontent fun other hclaims => hundisputed.eq_of_claims hstage rfl hfile hclaims with
    htext | ⟨-, hfilling⟩
  · exact htext
  · exact absurd hfilling (hdone.not_filling _)

/-- Two documents of one slug have been converted, and the first one is reported so. Both have one
text for their declarations, so that it stands in its theme. -/
theorem theme_of_isOk_afterCards :
    (afterCards cardText.toList).IsDone cardOut
      ∧ ∃ row ∈ (Batch.ofRows ((afterCards cardText.toList).rows cardOut)).rows, row.isOk = true
        ∧ ∃ (path : Path) (bundle : Bundle) (text : String),
          row = Row.converted path cardOut bundle
            ∧ ("style.css", text) ∈ bundle.files
            ∧ (afterCards cardText.toList).files.find (Bundle.target cardOut bundle "style.css")
              = .ok (some (.file (Text.Utf8.encode text.toList))) := by
  -- both workers run to their end, one after the other
  have hrun : (start (twoCards cardText.toList) cardPaths).run Settings.shipped cardOut
      (List.replicate 27 0 ++ List.replicate 26 1) = afterCards cardText.toList := rfl
  obtain ⟨_, _, -, -, -, hrow⟩ := exists_converted_afterCards
  obtain ⟨i, path, bundle, hworker, -, -, hconverted, -, hfiles⟩ :=
    theme_of_isOk hrun isDone_afterCards hrow rfl
  obtain ⟨text, hworkers⟩ := exists_declaration_afterCards
  obtain ⟨_, hfinished, hfile⟩ := hworkers _ (List.mem_of_getElem? hworker)
  cases hfinished
  obtain ⟨content, hfind, hcontent⟩ := hfiles hfile
  -- they write one and the same text there, so whoever is last does not matter
  have hundisputed :
      (afterCards cardText.toList).Undisputed i bundle.slug "style.css" text := by
    intro j stage theme other _ hstage htheme _ hother
    obtain ⟨_, -, hconverts⟩ := converts_of_stage? (hrun ▸ hstage) htheme
    obtain ⟨worker, hworker, rfl⟩ := Option.map_eq_some_iff.1 hstage
    obtain ⟨own, hown, hfile⟩ := hworkers worker (List.mem_of_getElem? hworker)
    rw [hown] at htheme
    obtain rfl := Option.some.inj htheme
    exact hconverts.made.text_unique hother hfile
  rw [hcontent hundisputed] at hfind
  exact ⟨isDone_afterCards, _, hrow, rfl, path, bundle, text, hconverted, hfile, hfind⟩

/-- The first document is reported as converted, but the stylesheet in its directory is that of the
second one. -/
theorem exists_lost_text :
    cardPaths.Nodup ∧ (afterCards cardText.toList).IsDone cardOut
      ∧ ∃ (i : Nat) (path : Path) (bundle : Bundle) (name text : String),
        (afterCards cardText.toList).workers[i]? = some (path, .finished bundle)
          ∧ Row.converted path cardOut bundle
            ∈ (Batch.ofRows ((afterCards cardText.toList).rows cardOut)).rows
          ∧ (Row.converted path cardOut bundle).isOk = true
          ∧ (name, text) ∈ bundle.files
          ∧ (afterCards cardText.toList).files.find (Bundle.target cardOut bundle name)
            ≠ .ok (some (.file (Text.Utf8.encode text.toList))) := by
  obtain ⟨path, bundle, hworker, hfile, htarget, hrow⟩ := exists_converted_afterCards
  refine ⟨by decide, isDone_afterCards, 0, path, bundle, _, _, hworker, hrow, rfl, hfile,
    fun hkept => ?_⟩
  obtain ⟨-, hfind, -⟩ := cardsReported_afterCards
  rw [htarget, hkept] at hfind
  have hbytes := Entry.file.inj (Option.some.inj (Option.some.inj hfind))
  -- what the other worker wrote there is longer than the text of this one
  rw [String.toList_append, Text.Utf8.encode, List.flatMap_append] at hbytes
  exact absurd (List.append_right_eq_self.1 hbytes) (by decide)

end Pool

end BlockTheme
