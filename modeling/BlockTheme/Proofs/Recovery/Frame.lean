import BlockTheme.Proofs.Recovery.ClassNames

/-!
# What recovery leaves alone

A recovery changes class names and nothing else, and of a class name it only adds to the end
(`recovered_keeps`). Nodes that can get nothing keep theirs, and the document that was given comes
back exactly if there is nothing to recover from.
-/

namespace BlockTheme.Recovery

/-- What a target has in common with the one that recovery makes of it. -/
structure Target.Kept (old new : Target) : Prop where
  /-- All but class names is the same, at the target and below it. -/
  unnamed_eq : new.unnamed = old.unnamed
  /-- A node that is neither a keyed leaf nor a group keeps its class name. -/
  className_eq : ∀ node, old = .node node → nodeLeaf? node = none → node.kind? ≠ some .group →
    new.className = old.className
  /-- The words of the old class name come first, in their order. -/
  words_prefix : (Text.wordsOf (old.className.getD "")).eraseDups
    <+: (Text.wordsOf (new.className.getD "")).eraseDups
  ne_empty : old.className.getD "" ≠ "" → new.className.getD "" ≠ ""

theorem Target.Kept.refl (target : Target) : target.Kept target where
  unnamed_eq := rfl
  className_eq _ _ _ _ := rfl
  words_prefix := List.prefix_rfl
  ne_empty h := h

/-- A node that is neither a keyed leaf nor a group asks for nothing. -/
theorem request_eq_nothing {node : Node} (hleaf : nodeLeaf? node = none)
    (hgroup : node.kind? ≠ some .group) : (Target.node node).request = .nothing := by
  simp [Target.request, Request.ofNode, hleaf, hgroup]

section Run

variable {document : Document} {html css : Option String}
  {thresholds : Except Settings.BadThresholds Thresholds}

/-- A target that is dressed with its grant is kept: without its class name it is the same, and the
words that it had stay in front of those that were added. -/
theorem Run.kept (run : Run document html css thresholds) {place : Nat} {old new : Target}
    (hold : document.walk[place]? = some old) (hunnamed : new.unnamed = old.unnamed)
    (hname : new.className = (grantAt run.grants place).dress old.className) : old.Kept new where
  unnamed_eq := hunnamed
  className_eq node hnode hleaf hgroup := by
    subst hnode
    have hnil := run.classes_eq_nil hold (request_eq_nothing hleaf hgroup)
    rw [hname, Grant.dress, hnil]
    rfl
  words_prefix := by
    rw [hname]
    exact prefix_mergeClassName run.isWord_of_mem_classes
  ne_empty h := by
    rw [hname]
    exact mergeClassName_ne_empty run.isWord_of_mem_classes h

end Run

/-- **Recovery touches class names only.** Without class names the result is the document that was
given; at every place of the walk the target is kept, so that its class name at most grows at its
end; and the document itself comes back exactly if there is no markup, no stylesheet, or no class in
the stylesheet. -/
theorem recovered_keeps (document : Document) (html css : Option String)
    (thresholds : Except Settings.BadThresholds Thresholds) {found : Option Document}
    (h : Convert.recovered? thresholds document html css = .ok found) :
    (found.getD document).unnamed = document.unnamed
      ∧ (∀ {place : Nat} {old : Target}, document.walk[place]? = some old →
          ∃ new, (found.getD document).walk[place]? = some new ∧ old.Kept new)
      ∧ (found = none ↔ NothingToRecover document html css) := by
  refine ⟨?_, fun {place old} hold => ?_, ?_⟩
  · rcases recovered?_eq_ok.1 h with ⟨-, rfl⟩ | ⟨-, run, rfl⟩
    · rfl
    · exact unnamed_dress document run.grants
  · rcases getElem?_walk_recovered h hold with ⟨-, hsame⟩ | ⟨run, new, hnew, hunnamed, hname⟩
    · exact ⟨old, hsame, Target.Kept.refl old⟩
    · exact ⟨new, hnew, run.kept hold hunnamed hname⟩
  · rcases recovered?_eq_ok.1 h with ⟨hnothing, rfl⟩ | ⟨hsomething, run, rfl⟩
    · simp [hnothing]
    · simp [hsomething]

/-- On the page with two headings, class names are added at three targets of four, and the words that
the first heading had stay in front. -/
theorem recovered_keeps_twoHeadings :
    ∃ found, Convert.recovered? (.ok {}) twoHeadings (some twoWrappers) none = .ok found
      ∧ (found.getD twoHeadings).walk.map Target.className
        = [some "_", some "lead _", none, some "_"]
      ∧ (found.getD twoHeadings).unnamed = twoHeadings.unnamed
      ∧ (∀ {place : Nat} {old : Target}, twoHeadings.walk[place]? = some old →
          ∃ new, (found.getD twoHeadings).walk[place]? = some new ∧ old.Kept new)
      ∧ (found = none ↔ NothingToRecover twoHeadings (some twoWrappers) none) := by
  have hnames : (Convert.recovered? (.ok {}) twoHeadings (some twoWrappers) none).toOption.map
      (fun found => (found.getD twoHeadings).walk.map Target.className)
        = some [some "_", some "lead _", none, some "_"] := by
    decide +kernel
  cases hfound : Convert.recovered? (.ok {}) twoHeadings (some twoWrappers) none with
  | error why => simp [hfound, Except.toOption] at hnames
  | ok found =>
    rw [hfound] at hnames
    exact ⟨found, rfl, Option.some.inj hnames,
      recovered_keeps twoHeadings (some twoWrappers) none (.ok {}) hfound⟩

end BlockTheme.Recovery
