import BlockTheme.Proofs.Recovery.Idempotence

/-!
# What a conversion leaves alone

The markup and the stylesheet of a page decide which class names its document gets back, and nothing
else. The name of a theme, its declarations, settings and functions and all numbers of its summary
but one are the same for a document without its class names (`Bundle.agrees_unnamed`). The number
that is left is that of the class names, and recovery never makes it smaller
(`Recovery.classNames_prepared`). So two conversions of one document differ in its class names and in
the stylesheet that they were given (`convert_agrees`).
-/

namespace BlockTheme

/-! ## Summaries -/

namespace Node

variable (node : Node)

/-- A node keeps its motion without its class names. -/
theorem motion_unnamed : node.unnamed.motion = node.motion := by
  cases node
  rw [unnamed]

theorem className_unnamed : node.unnamed.className = none := by
  cases node
  rw [unnamed]

/-- Whether it is an image from elsewhere does not depend on them. -/
theorem isExternalImage_unnamed : node.unnamed.isExternalImage = node.isExternalImage := by
  have hattributes : node.unnamed.attributes = node.attributes := by
    cases node
    rw [unnamed]
  rw [isExternalImage, isExternalImage, kind?_unnamed, hattributes]

end Node

namespace Document

variable (document : Document)

theorem nodes_unnamed : document.unnamed.nodes = document.nodes.map Node.unnamed := by
  rw [nodes, nodes, regions_unnamed, List.flatMap_map, List.map_flatMap]
  exact List.flatMap_congr fun s _ => Node.preorderAll_unnamed s.children

/-- A document without its class names has the same summary, but for their number. The other counts
look at motions, images and kinds, which stay. -/
theorem summary_unnamed : document.unnamed.summary = { document.summary with classNames := 0 } := by
  have hmotions : document.unnamed.regions.countP (fun region => Motion.moves region.motion)
        + document.unnamed.nodes.countP (fun node => Motion.moves node.motion)
      = document.regions.countP (fun region => Motion.moves region.motion)
        + document.nodes.countP (fun node => Motion.moves node.motion) := by
    rw [regions_unnamed, nodes_unnamed, List.countP_map, List.countP_map]
    simp only [Function.comp_def, Node.motion_unnamed, Section.unnamed]
  have himages : document.unnamed.nodes.countP Node.isExternalImage
      = document.nodes.countP Node.isExternalImage := by
    rw [nodes_unnamed, List.countP_map]
    exact List.countP_congr fun node _ => by rw [Function.comp_apply, node.isExternalImage_unnamed]
  -- only this count looks at class names, and there are none left
  have hnames : document.unnamed.regions.countP (fun region => Text.isFilled region.className)
      + document.unnamed.nodes.countP (fun node => Text.isFilled node.className) = 0 := by
    rw [regions_unnamed, nodes_unnamed, List.countP_map, List.countP_map]
    simp only [Function.comp_def, Node.className_unnamed, Section.unnamed]
    simp [Text.isFilled]
  unfold summary
  rw [hmotions, himages, hnames]
  simp [unnamed]

/-- The class names of a document are those of the targets of its walk, so that what is known about
the targets after a recovery says how the number grows. -/
theorem classNames_summary :
    document.summary.classNames
      = document.walk.countP fun target => Text.isFilled target.className := by
  show document.regions.countP (fun region => Text.isFilled region.className)
    + document.nodes.countP (fun node => Text.isFilled node.className) = _
  rw [nodes, walk]
  induction document.regions with
  | nil => rfl
  | cons s rest ih =>
    have hsection : s.walk.countP (fun target => Text.isFilled target.className)
        = (Node.preorderAll s.children).countP (fun node => Text.isFilled node.className)
          + if Text.isFilled s.className then 1 else 0 := by
      rw [Section.walk, List.countP_cons, List.countP_map]
      rfl
    rw [List.countP_cons, List.flatMap_cons, List.countP_append, List.flatMap_cons,
      List.countP_append, hsection, ← ih]
    omega

end Document

/-! ## The number of class names -/

namespace Recovery

/-- Changing the members of a list so that none is lost that counts makes their number no smaller.
The change may depend on the place of a member, as that of a recovery does. -/
theorem countP_le_countP_mapIdx {α β : Type} {p : α → Bool} {q : β → Bool} {xs : List α}
    {f : Nat → α → β} (h : ∀ place, ∀ x ∈ xs, p x = true → q (f place x) = true) :
    xs.countP p ≤ (xs.mapIdx f).countP q := by
  induction xs generalizing f with
  | nil => simp
  | cons x rest ih =>
    have hrest := ih (f := fun place => f (place + 1)) fun place y hy =>
      h (place + 1) y (List.mem_cons_of_mem x hy)
    have hfirst := h 0 x List.mem_cons_self
    rw [List.mapIdx_cons, List.countP_cons, List.countP_cons]
    by_cases hx : p x = true
    · rw [if_pos hx, if_pos (hfirst hx)]
      omega
    · rw [if_neg hx]
      omega

variable {document result : Document} {html css : Option String} {settings : Settings}

/-- Dressing a document never takes a class name away, so that there are as many as before or more.
-/
theorem Run.classNames_dress {thresholds : Except Settings.BadThresholds Thresholds}
    (run : Run document html css thresholds) :
    document.summary.classNames ≤ (dress document run.grants).summary.classNames := by
  have hnames : (dress document run.grants).walk.countP (fun target => Text.isFilled target.className)
      = (dressedNames document.walk run.grants).countP Text.isFilled := by
    rw [← classNames_walk_dress, List.countP_map]
    rfl
  rw [Document.classNames_summary, Document.classNames_summary, hnames]
  apply countP_le_countP_mapIdx
  intro place target _ hfilled
  -- classes that are added do not empty a class name
  have hwords : ∀ name ∈ (grantAt run.grants place).classes, Text.IsWord name :=
    run.isWord_of_mem_classes
  exact bne_iff_ne.2 (mergeClassName_ne_empty hwords (bne_iff_ne.1 hfilled))

/-- **What is rendered has at least as many class names as the document.** Recovery adds class names
and takes none away. -/
theorem classNames_prepared (h : Convert.prepared settings document html css = .ok result) :
    document.summary.classNames ≤ result.summary.classNames := by
  rcases prepared_eq_ok h with rfl | ⟨run, rfl⟩
  · exact Nat.le_refl _
  · exact run.classNames_dress

end Recovery

/-! ## Themes -/

namespace Bundle

/-- The files of a theme that no class name stands in. -/
def plainNames : List String := ["style.css", "theme.json", "functions.php"]

/-- Themes that differ at most in their templates, in their own stylesheets and in the number of
class names. -/
structure Agrees (a b : Bundle) : Prop where
  slug_eq : a.slug = b.slug
  names_eq : a.files.map Prod.fst = b.files.map Prod.fst
  text_eq : ∀ name ∈ plainNames, ∃ text, a.files.lookup name = some text
    ∧ b.files.lookup name = some text
  summary_eq : { a.summary with classNames := 0 } = { b.summary with classNames := 0 }

theorem Agrees.symm {a b : Bundle} (h : a.Agrees b) : b.Agrees a where
  slug_eq := h.slug_eq.symm
  names_eq := h.names_eq.symm
  text_eq name hname := by
    obtain ⟨text, ha, hb⟩ := h.text_eq name hname
    exact ⟨text, hb, ha⟩
  summary_eq := h.summary_eq.symm

theorem Agrees.trans {a b c : Bundle} (h : a.Agrees b) (h' : b.Agrees c) : a.Agrees c where
  slug_eq := h.slug_eq.trans h'.slug_eq
  names_eq := h.names_eq.trans h'.names_eq
  text_eq name hname := by
    obtain ⟨text, ha, hb⟩ := h.text_eq name hname
    obtain ⟨_, hb', hc⟩ := h'.text_eq name hname
    obtain rfl := Option.some.inj (hb.symm.trans hb')
    exact ⟨text, ha, hc⟩
  summary_eq := h.summary_eq.trans h'.summary_eq

/-- **A theme agrees with that of the document without its class names**, whatever stylesheet either
of them was given. -/
theorem agrees_unnamed (document : Document) (css css' : Option String) :
    (ofDocument document css).Agrees (ofDocument document.unnamed css') where
  slug_eq := by
    rw [ofDocument, ofDocument]
    rfl
  names_eq := by
    unfold ofDocument filesOf Document.templates Document.unnamed
    cases document.header <;> cases document.footer <;> simp
  text_eq := by
    -- the settings of the theme depend on which parts there are, and not on what is in them
    have hsettings : Theme.settingsFile document.unnamed = Theme.settingsFile document := by
      unfold Theme.settingsFile Theme.settingsJson Theme.parts
      simp only [Document.unnamed, Option.isSome_map]
    have hdeclaration : Theme.declarationFile document.unnamed = Theme.declarationFile document := rfl
    have hfunctions : Theme.functionsFile document.unnamed = Theme.functionsFile document := rfl
    simp only [plainNames, List.forall_mem_cons, ofDocument, filesOf, hsettings, hdeclaration,
      hfunctions]
    simp [List.lookup_cons]
  summary_eq := by
    show { document.summary with classNames := 0 } = { document.unnamed.summary with classNames := 0 }
    rw [document.summary_unnamed]

end Bundle

/-- **Markup and stylesheet only affect class names.** Two conversions of one document, with any
markup, stylesheet and settings, make themes that agree. The stylesheet in a theme is that of the
document or the one that was given, so that the markup and the settings have no part in it; and a
conversion has at least as many class names as the document. -/
theorem convert_agrees {document : Document} {settings settings' : Settings}
    {html html' css css' : Option String} {bundle bundle' : Bundle}
    (h : convert settings document html css = .ok bundle)
    (h' : convert settings' document html' css' = .ok bundle') :
    bundle.Agrees bundle'
      ∧ bundle.files.lookup "assets/css/custom.css"
        = some (Theme.stylesheetFile (Convert.stylesheet document css))
      ∧ (css = css' → bundle.files.lookup "assets/css/custom.css"
        = bundle'.files.lookup "assets/css/custom.css")
      ∧ document.summary.classNames ≤ bundle.summary.classNames := by
  -- the style sheet is made of the document before any class is added
  have hsheet : ∀ {settings : Settings} {html css : Option String} {result : Document},
      Convert.prepared settings document html css = .ok result →
        (Bundle.ofDocument result css).files.lookup "assets/css/custom.css"
          = some (Theme.stylesheetFile (Convert.stylesheet document css)) := by
    intro settings html css result hresult
    have hunnamed := congrArg Document.stylesheet (Recovery.unnamed_prepared hresult)
    have hsame : result.stylesheet = document.stylesheet := hunnamed
    rw [Recovery.lookup_stylesheetFile, Convert.stylesheet, Convert.stylesheet, hsame]
  obtain ⟨result, hresult, rfl⟩ := Recovery.convert_eq_ok h
  obtain ⟨result', hresult', rfl⟩ := Recovery.convert_eq_ok h'
  refine ⟨?_, hsheet hresult, ?_, Recovery.classNames_prepared hresult⟩
  -- without its class names either result is the document that was given
  · have hunnamed : result.unnamed = result'.unnamed :=
      (Recovery.unnamed_prepared hresult).trans (Recovery.unnamed_prepared hresult').symm
    have hagrees := Bundle.agrees_unnamed result css none
    rw [hunnamed] at hagrees
    exact hagrees.trans (Bundle.agrees_unnamed result' css' none).symm
  · rintro rfl
    rw [hsheet hresult, hsheet hresult']

/-- From its markup the page with two headings gets two more class names than it has, and its theme
agrees with the one that is made without markup. -/
theorem convert_agrees_twoHeadings :
    ∃ bundle bundle',
      convert Settings.shipped Recovery.twoHeadings (some Recovery.twoWrappers) none = .ok bundle
        ∧ convert (.record []) Recovery.twoHeadings none (some "p") = .ok bundle'
        ∧ (bundle.summary.classNames, bundle'.summary.classNames) = (3, 1)
        ∧ bundle.Agrees bundle'
        ∧ Recovery.twoHeadings.summary.classNames ≤ bundle.summary.classNames := by
  -- the first conversion adds the class names that the markup has
  have hcount :
      (convert Settings.shipped Recovery.twoHeadings (some Recovery.twoWrappers) none).toOption.map
        (fun bundle => bundle.summary.classNames) = some 3 := by
    decide +kernel
  -- the second is given no markup, and other settings and another style sheet
  have hcount' : (convert (.record []) Recovery.twoHeadings none (some "p")).toOption.map
      (fun bundle => bundle.summary.classNames) = some 1 := by
    decide +kernel
  cases h : convert Settings.shipped Recovery.twoHeadings (some Recovery.twoWrappers) none with
  | error why => simp [h, Except.toOption] at hcount
  | ok bundle =>
    cases h' : convert (.record []) Recovery.twoHeadings none (some "p") with
    | error why => simp [h', Except.toOption] at hcount'
    | ok bundle' =>
      obtain ⟨hagrees, -, -, hmore⟩ := convert_agrees h h'
      rw [h] at hcount
      rw [h'] at hcount'
      exact ⟨bundle, bundle', rfl, rfl,
        Prod.ext (Option.some.inj hcount) (Option.some.inj hcount'), hagrees, hmore⟩

end BlockTheme
