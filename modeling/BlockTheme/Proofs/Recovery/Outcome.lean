import BlockTheme.Convert
import BlockTheme.Proofs.Recovery.Grants

/-!
# What a recovery ends with

`recovered?_eq_ok` lists the two ways in which a recovery ends well: there is nothing to recover
from and the document stays as it is, or a run over the stock of the markup gives the grants that
the document is dressed with. `getElem?_walk_recovered` is what this says about one target, and
`prepared_eq_ok` what it says about the document that is rendered.
-/

namespace BlockTheme.Recovery

/-- There is nothing to recover class names from: no markup, no stylesheet, or no class in it. -/
def NothingToRecover (document : Document) (html css : Option String) : Prop :=
  html.getD "" = "" ∨ (Convert.stylesheet document css).getD "" = ""
    ∨ definedClasses ((Convert.stylesheet document css).getD "") = []

variable {document : Document} {html css : Option String}
  {thresholds : Except Settings.BadThresholds Thresholds}

/-- The classes that the stylesheet of a recovery defines. -/
def definedFor (document : Document) (css : Option String) : List String :=
  definedClasses ((Convert.stylesheet document css).getD "")

/-- A run of a recovery: the stock of the markup, the thresholds, and what is granted. -/
structure Run (document : Document) (html css : Option String)
    (thresholds : Except Settings.BadThresholds Thresholds) where
  stock : Stock
  limits : Thresholds
  grants : List Grant
  stock_eq : Stock.ofMarkup (html.getD "") (definedFor document css) = .ok stock
  limits_eq : thresholds = .ok limits
  grants_eq : assign stock limits {} (targets document) = .ok grants

theorem skips_iff :
    (!Text.isFilled html || !Text.isFilled (Convert.stylesheet document css)
      || (definedFor document css).isEmpty) = true ↔ NothingToRecover document html css := by
  simp [NothingToRecover, definedFor, Text.isFilled, or_assoc]

/-- **A recovery ends well in two ways**: it leaves the document alone exactly if there is nothing
to recover from, and otherwise it dresses the document with what a run grants. -/
theorem recovered?_eq_ok {found : Option Document} :
    Convert.recovered? thresholds document html css = .ok found ↔
      (NothingToRecover document html css ∧ found = none)
        ∨ (¬NothingToRecover document html css
          ∧ ∃ run : Run document html css thresholds, found = some (dress document run.grants)) := by
  have hdefined : definedClasses ((Convert.stylesheet document css).getD "")
      = definedFor document css := rfl
  unfold Convert.recovered?
  simp only [hdefined]
  by_cases hskip : NothingToRecover document html css
  · rw [if_pos (skips_iff.2 hskip)]
    simp [hskip, eq_comm]
  · rw [if_neg fun h => hskip (skips_iff.1 h)]
    simp only [hskip, false_and, not_false_eq_true, true_and, false_or]
    constructor
    · intro h
      split at h
      · exact absurd h (by simp)
      · exact absurd h (by simp)
      -- with a stock and thresholds it is the run that decides
      · next stock limits hstock =>
        split at h
        · exact absurd h (by simp)
        · next result hrecover =>
          unfold recover at hrecover
          cases hgrants : assign stock limits {} (targets document) with
          | error why => simp [hgrants, Except.map] at hrecover
          | ok grants =>
            simp only [hgrants, Except.map, Except.ok.injEq] at hrecover h
            exact ⟨⟨stock, limits, grants, hstock, rfl, hgrants⟩, by rw [← h, hrecover]⟩
    · rintro ⟨run, rfl⟩
      simp only [run.stock_eq, run.limits_eq, recover, run.grants_eq, Except.map]

/-- A recovery that is not passed over and ends well is a run. -/
theorem exists_run_of_eq_some {result : Document}
    (h : Convert.recovered? thresholds document html css = .ok (some result)) :
    ¬NothingToRecover document html css
      ∧ ∃ run : Run document html css thresholds, result = dress document run.grants := by
  rcases recovered?_eq_ok.1 h with ⟨-, hnone⟩ | ⟨hsomething, run, hresult⟩
  · exact absurd hnone (by simp)
  · exact ⟨hsomething, run, Option.some.inj hresult⟩

/-- What is seen of a recovery is seen of its result. -/
theorem exists_recovered_of_map {α : Type} {look : Document → α} {seen : α}
    (h : (Convert.recovered? thresholds document html css).toOption.map
      (fun found => found.map look) = some (some seen)) :
    ∃ result, Convert.recovered? thresholds document html css = .ok (some result)
      ∧ look result = seen := by
  cases hfound : Convert.recovered? thresholds document html css with
  | error why => simp [hfound, Except.toOption] at h
  | ok found =>
    rw [hfound] at h
    obtain ⟨result, rfl, hlook⟩ := Option.map_eq_some_iff.1 (Option.some.inj h)
    exact ⟨result, rfl, hlook⟩

/-- What is known of the stock of a markup is known of the stock of a run. -/
theorem Run.stock_of_map (run : Run document html css thresholds) {α : Type} {look : Stock → α}
    {seen : α}
    (h : (Stock.ofMarkup (html.getD "") (definedFor document css)).toOption.map look = some seen) :
    look run.stock = seen := by
  rw [run.stock_eq] at h
  exact Option.some.inj h

/-- What a recovery makes of the target at a place of the walk: the target itself, or the target
with a class name to which classes of the run were added. -/
theorem getElem?_walk_recovered {found : Option Document}
    (h : Convert.recovered? thresholds document html css = .ok found) {place : Nat}
    {target : Target} (htarget : document.walk[place]? = some target) :
    (found = none ∧ (found.getD document).walk[place]? = some target)
      ∨ ∃ run : Run document html css thresholds, ∃ dressed,
          (found.getD document).walk[place]? = some dressed ∧ dressed.unnamed = target.unnamed
            ∧ dressed.className = (grantAt run.grants place).dress target.className := by
  rcases recovered?_eq_ok.1 h with ⟨-, rfl⟩ | ⟨-, run, rfl⟩
  · exact Or.inl ⟨rfl, htarget⟩
  · exact Or.inr ⟨run, getElem?_walk_dress run.grants htarget⟩

/-! ## What is rendered -/

section Prepared

variable {settings : Settings}

/-- **What is rendered is the document or what a run makes of it.** All statements about recovered
documents start from here: either nothing was recovered, or there is a run to look at. -/
theorem prepared_eq_ok {result : Document}
    (h : Convert.prepared settings document html css = .ok result) :
    result = document
      ∨ ∃ run : Run document html css settings.thresholds, result = dress document run.grants := by
  unfold Convert.prepared at h
  split at h
  · cases hfound : Convert.recovered? settings.thresholds document html css with
    | error why => simp [hfound, Except.map] at h
    | ok found =>
      simp only [hfound, Except.map, Except.ok.injEq] at h
      rcases recovered?_eq_ok.1 hfound with ⟨-, rfl⟩ | ⟨-, run, rfl⟩
      · exact Or.inl h.symm
      · exact Or.inr ⟨run, h.symm⟩
  · exact Or.inl (Except.ok.inj h).symm

theorem unnamed_prepared {result : Document}
    (h : Convert.prepared settings document html css = .ok result) :
    result.unnamed = document.unnamed := by
  rcases prepared_eq_ok h with rfl | ⟨run, rfl⟩
  · rfl
  · exact unnamed_dress document run.grants

/-- A conversion renders what was prepared. -/
theorem convert_eq_ok {bundle : Bundle} (h : convert settings document html css = .ok bundle) :
    ∃ result, Convert.prepared settings document html css = .ok result
      ∧ bundle = Bundle.ofDocument result css := by
  unfold convert at h
  cases hresult : Convert.prepared settings document html css with
  | error why => simp [hresult, Except.map] at h
  | ok result =>
    simp only [hresult, Except.map, Except.ok.injEq] at h
    exact ⟨result, rfl, h.symm⟩

end Prepared

end BlockTheme.Recovery
