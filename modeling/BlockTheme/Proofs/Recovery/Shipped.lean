import BlockTheme.Proofs.Recovery.ClassNames
import BlockTheme.Proofs.Recovery.Selectors

/-!
# Recovered classes are shipped

A class that a conversion adds to a document is defined by the stylesheet that the theme ships with
it, and it stands in the markup of the page (`recovered_classes_shipped`). The recovery and the
theme choose their stylesheet by the same rule, and what the theme writes around it defines nothing
and hides nothing (`definedClasses_stylesheetFile`).
-/

namespace BlockTheme.Recovery

/-- Recovery leaves the stylesheet of a document alone, so a theme ships the one that its classes
were recovered by. -/
theorem stylesheet_dress (document : Document) (grants : List Grant) (css : Option String) :
    Convert.stylesheet (dress document grants) css = Convert.stylesheet document css := by
  have hunnamed := congrArg Document.stylesheet (unnamed_dress document grants)
  have hsame : (dress document grants).stylesheet = document.stylesheet := hunnamed
  rw [Convert.stylesheet, Convert.stylesheet, hsame]

/-- The file of a theme with the page's own stylesheet. -/
theorem lookup_stylesheetFile (document : Document) (css : Option String) :
    (Bundle.ofDocument document css).files.lookup "assets/css/custom.css"
      = some (Theme.stylesheetFile (Convert.stylesheet document css)) := by
  simp [Bundle.ofDocument, Bundle.filesOf, List.lookup_cons]

/-- **Every recovered class is shipped.** The stylesheet of a theme defines the classes of the text
that it was made of. And if a conversion ends well, every word that it adds to the class name of a
target is defined by the stylesheet among the files of the theme, and stands in the class attribute
of an element of the markup. -/
theorem recovered_classes_shipped (settings : Settings) (document : Document)
    (html css : Option String) :
    (∀ sheet : String,
        definedClasses (Theme.stylesheetFile (some sheet)) = definedClasses sheet)
      ∧ ∀ {bundle : Bundle}, convert settings document html css = .ok bundle →
        ∃ result file, Convert.prepared settings document html css = .ok result
          ∧ bundle = Bundle.ofDocument result css
          ∧ bundle.files.lookup "assets/css/custom.css" = some file
          ∧ result.unnamed = document.unnamed
          ∧ ∀ {place : Nat} {old new : Target} {name : String},
            document.walk[place]? = some old → result.walk[place]? = some new →
            name ∈ Text.wordsOf (new.className.getD "") →
            name ∉ Text.wordsOf (old.className.getD "") →
            name ∈ definedClasses file
              ∧ ∃ trees, Html.parse (html.getD "") = .ok trees ∧ StandsIn trees name := by
  refine ⟨fun sheet => definedClasses_stylesheetFile (some sheet), fun {bundle} h => ?_⟩
  obtain ⟨result, hprepared, rfl⟩ := convert_eq_ok h
  refine ⟨result, _, hprepared, rfl, lookup_stylesheetFile result css,
    unnamed_prepared hprepared, ?_⟩
  intro place old new name hold hnew hadded hmissing
  rcases prepared_eq_ok hprepared with rfl | ⟨run, rfl⟩
  · -- nothing was recovered, so the target is the same
    obtain rfl := Option.some.inj (hold.symm.trans hnew)
    exact absurd hadded hmissing
  · obtain ⟨dressed, hdressed, -, hname⟩ := getElem?_walk_dress run.grants hold
    obtain rfl := Option.some.inj (hnew.symm.trans hdressed)
    rw [hname] at hadded
    rw [definedClasses_stylesheetFile, stylesheet_dress]
    exact run.origin (mem_classes_of_mem_wordsOf run.isWord_of_mem_classes hadded hmissing)

/-- The class that the first heading of the page with two headings gets is shipped: it is defined in
the file of the theme, and stands in the markup. -/
theorem recovered_classes_shipped_twoHeadings :
    ∃ bundle, convert Settings.shipped twoHeadings (some twoWrappers) none = .ok bundle
      ∧ ∃ file, bundle.files.lookup "assets/css/custom.css" = some file
        ∧ "_" ∈ definedClasses file
        ∧ ∃ trees, Html.parse twoWrappers = .ok trees ∧ StandsIn trees "_" := by
  have hnames : (Convert.prepared Settings.shipped twoHeadings (some twoWrappers) none).toOption.map
      (fun result => result.walk.map Target.className)
        = some [some "_", some "lead _", none, some "_"] := by
    decide +kernel
  obtain ⟨-, hshipped⟩ :=
    recovered_classes_shipped Settings.shipped twoHeadings (some twoWrappers) none
  cases hresult : Convert.prepared Settings.shipped twoHeadings (some twoWrappers) none with
  | error why => simp [hresult, Except.toOption] at hnames
  | ok result =>
    have hconvert : convert Settings.shipped twoHeadings (some twoWrappers) none
        = .ok (Bundle.ofDocument result none) := by
      rw [convert, hresult]
      rfl
    obtain ⟨prepared, file, hprepared, -, hfile, -, hadded⟩ := hshipped hconvert
    obtain rfl := Except.ok.inj (hresult.symm.trans hprepared)
    rw [hresult] at hnames
    -- the second target had the class `lead` and got another one
    have hwalk := congrArg (fun names => names[1]?) (Option.some.inj hnames)
    rw [List.getElem?_map] at hwalk
    obtain ⟨new, hnew, hname⟩ := Option.map_eq_some_iff.1 hwalk
    obtain ⟨old, hold⟩ : ∃ old, twoHeadings.walk[1]? = some old
        ∧ old.className = some "lead" := ⟨_, rfl, rfl⟩
    refine ⟨_, hconvert, file, hfile, @hadded _ _ _ "_" hold.1 hnew ?_ ?_⟩
    · rw [hname]
      decide +kernel
    · rw [hold.2]
      decide +kernel

end BlockTheme.Recovery
