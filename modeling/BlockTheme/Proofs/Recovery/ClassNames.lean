import BlockTheme.Proofs.Recovery.Outcome
import BlockTheme.Proofs.Recovery.SingleUse

/-!
# Class names that were added to

The words of a class name after classes were added to it (`wordsOf_mergeClassName`): the words that
it had come first, so none of them is lost and a class name that says something goes on saying
something. Adding classes is an ordered union (`mergeClassName_append`,
`mergeClassName_mergeClassName`). The classes themselves come from two places at once: the
stylesheet defines them, and they stand in the class attribute of an element of the markup
(`Run.origin`).
-/

namespace BlockTheme.Recovery

/-! ## The words of a merged class name -/

section Merge

variable {old : Option String} {classes : List String}

/-- A class name with classes added has its words and these, each once. -/
theorem mergeClassName_eq (old : Option String) (hne : classes ≠ [])
    (hwords : ∀ name ∈ classes, Text.IsWord name) :
    mergeClassName old classes
      = some (" ".intercalate (Text.wordsOf (old.getD "") ++ classes).eraseDups) := by
  have hextends := extends_mergeClassName old fun name hname => (hwords name hname).1
  rw [Extends, if_neg hne] at hextends
  obtain ⟨names, hmerged, -, hnames⟩ := hextends
  rw [hmerged, hnames]

/-- **The words of a class name with classes added are its old words and then the classes, each
once.** That the classes are words is needed, as another text would be read as several words or
none. -/
theorem wordsOf_mergeClassName (hne : classes ≠ [])
    (hwords : ∀ name ∈ classes, Text.IsWord name) :
    Text.wordsOf ((mergeClassName old classes).getD "")
      = (Text.wordsOf (old.getD "") ++ classes).eraseDups := by
  rw [mergeClassName_eq old hne hwords, Option.getD_some, Text.wordsOf_intercalate]
  intro name hname
  rw [List.mem_eraseDups] at hname
  rcases List.mem_append.1 hname with hword | hclass
  · exact Text.isWord_of_mem_wordsOf hword
  · exact hwords name hclass

/-- Each of them once means that no two are the same. -/
theorem nodup_eraseDups (names : List String) : names.eraseDups.Nodup := by
  rw [← Text.distinct_eq_eraseDups]
  exact Text.nodup_distinct names

theorem eraseDups_eq_self_of_nodup {names : List String} (h : names.Nodup) :
    names.eraseDups = names := by
  induction names with
  | nil => rfl
  | cons name rest ih =>
    obtain ⟨hname, hrest⟩ := List.nodup_cons.1 h
    have hfilter : rest.filter (fun b => !b == name) = rest :=
      List.filter_eq_self.2 fun b hb => by simpa using fun heq : b = name => hname (heq ▸ hb)
    rw [List.eraseDups_cons, hfilter, ih hrest]

/-- What stood in front once does not have to be kept apart from what comes behind. -/
theorem eraseDups_append_eraseDups (names more : List String) :
    (names.eraseDups ++ more).eraseDups = (names ++ more).eraseDups := by
  have hsame : more.removeAll names.eraseDups = more.removeAll names := by
    apply List.filter_congr
    intro name _
    simp
  rw [List.eraseDups_append, List.eraseDups_append,
    eraseDups_eq_self_of_nodup (nodup_eraseDups names), hsame]

/-- What stands in front already adds nothing. -/
theorem eraseDups_append_of_subset {names more : List String} (h : more ⊆ names) :
    (names ++ more).eraseDups = names.eraseDups := by
  have hnone : more.removeAll names = [] := by
    apply List.filter_eq_nil_iff.2
    intro name hname
    simpa using h hname
  rw [List.eraseDups_append, hnone, List.eraseDups_nil, List.append_nil]

/-- **Adding classes and then more of them is adding both together.** Deduplication keeps first
copies, so it makes no difference when it is done. -/
theorem mergeClassName_append (old : Option String) {more : List String}
    (hwords : ∀ name ∈ classes, Text.IsWord name) (hmore : ∀ name ∈ more, Text.IsWord name) :
    mergeClassName (mergeClassName old classes) more = mergeClassName old (classes ++ more) := by
  by_cases hnil : classes = []
  · -- with nothing to add the class name stays as it is
    subst hnil
    rfl
  by_cases hnone : more = []
  · subst hnone
    rw [List.append_nil]
    rfl
  have hboth : ∀ name ∈ classes ++ more, Text.IsWord name := by
    intro name hname
    exact (List.mem_append.1 hname).elim (hwords name) (hmore name)
  rw [mergeClassName_eq _ hnone hmore, wordsOf_mergeClassName hnil hwords,
    mergeClassName_eq old (List.append_ne_nil_of_left_ne_nil hnil more) hboth,
    eraseDups_append_eraseDups, List.append_assoc]

/-- **Classes that were added once are not added again.** For class names this is what makes
recovery idempotent. -/
theorem mergeClassName_mergeClassName (old : Option String)
    (hwords : ∀ name ∈ classes, Text.IsWord name) :
    mergeClassName (mergeClassName old classes) classes = mergeClassName old classes := by
  by_cases hnil : classes = []
  · subst hnil
    rfl
  have htwice : ∀ name ∈ classes ++ classes, Text.IsWord name := by
    intro name hname
    exact (List.mem_append.1 hname).elim (hwords name) (hwords name)
  rw [mergeClassName_append old hwords hwords, mergeClassName_eq old hnil hwords,
    mergeClassName_eq old (List.append_ne_nil_of_left_ne_nil hnil classes) htwice,
    ← List.append_assoc, eraseDups_append_of_subset (List.subset_append_right _ classes)]

/-- The old words come first in a class name with classes added. -/
theorem prefix_mergeClassName (hwords : ∀ name ∈ classes, Text.IsWord name) :
    (Text.wordsOf (old.getD "")).eraseDups
      <+: (Text.wordsOf ((mergeClassName old classes).getD "")).eraseDups := by
  by_cases hnil : classes = []
  · rw [hnil]
    exact List.prefix_rfl
  · rw [wordsOf_mergeClassName hnil hwords, eraseDups_eq_self_of_nodup (nodup_eraseDups _),
      List.eraseDups_append]
    exact List.prefix_append _ _

/-- A class name that is not empty does not become empty. -/
theorem mergeClassName_ne_empty (hwords : ∀ name ∈ classes, Text.IsWord name)
    (hold : old.getD "" ≠ "") : (mergeClassName old classes).getD "" ≠ "" := by
  by_cases hnil : classes = []
  · rwa [hnil]
  · intro hempty
    obtain ⟨name, hname⟩ := List.exists_mem_of_ne_nil classes hnil
    have hmem : name ∈ Text.wordsOf ((mergeClassName old classes).getD "") := by
      rw [wordsOf_mergeClassName hnil hwords, List.mem_eraseDups]
      exact List.mem_append_right _ hname
    rw [hempty] at hmem
    exact absurd hmem List.not_mem_nil

/-- The words of a class name with classes added are its old words and the classes. -/
theorem mem_wordsOf_mergeClassName (hwords : ∀ name ∈ classes, Text.IsWord name) {name : String} :
    name ∈ Text.wordsOf ((mergeClassName old classes).getD "") ↔
      name ∈ Text.wordsOf (old.getD "") ∨ name ∈ classes := by
  by_cases hnil : classes = []
  · subst hnil
    show name ∈ Text.wordsOf (old.getD "") ↔ _
    simp
  · rw [wordsOf_mergeClassName hnil hwords, List.mem_eraseDups, List.mem_append]

/-- A word that is new in a class name is one of the classes that were added. -/
theorem mem_classes_of_mem_wordsOf (hwords : ∀ name ∈ classes, Text.IsWord name) {name : String}
    (hnew : name ∈ Text.wordsOf ((mergeClassName old classes).getD ""))
    (hold : name ∉ Text.wordsOf (old.getD "")) : name ∈ classes :=
  ((mem_wordsOf_mergeClassName hwords).1 hnew).resolve_left hold

/-- A class attribute has the same defined classes whether it is given as one text or in parts that
make this text with single spaces between them. -/
theorem qualifying_join (parts defined : List String) :
    qualifying [" ".intercalate parts] defined = qualifying parts defined := by
  rw [qualifying, qualifying, List.flatMap_singleton, Text.wordsOf_join]

/-- **Class names are ordered unions.** With classes added, the words of a class name are its old
ones and then the classes, each where it first occurs; adding classes and then others is adding both,
and adding the same ones again changes nothing. Of the words of an attribute the defined ones are
kept, in how many parts it may be given. -/
theorem unions_of_words (old : Option String) {first second : List String}
    (hfirst : ∀ name ∈ first, Text.IsWord name) (hsecond : ∀ name ∈ second, Text.IsWord name) :
    (first ≠ [] → ∃ merged, mergeClassName old first = some merged
        ∧ Text.wordsOf merged = (Text.wordsOf (old.getD "") ++ first).eraseDups
        ∧ (Text.wordsOf merged).Nodup)
      ∧ mergeClassName (mergeClassName old first) second = mergeClassName old (first ++ second)
      ∧ mergeClassName (mergeClassName old first) first = mergeClassName old first
      ∧ ∀ parts defined : List String,
        qualifying [" ".intercalate parts] defined = qualifying parts defined := by
  refine ⟨?_, mergeClassName_append old hfirst hsecond, mergeClassName_mergeClassName old hfirst,
    qualifying_join⟩
  intro hne
  -- the merged text has the words of both, each of them once
  have hwords : Text.wordsOf ((mergeClassName old first).getD "")
      = (Text.wordsOf (old.getD "") ++ first).eraseDups := wordsOf_mergeClassName hne hfirst
  rw [mergeClassName_eq old hne hfirst, Option.getD_some] at hwords
  refine ⟨_, mergeClassName_eq old hne hfirst, hwords, ?_⟩
  rw [hwords]
  exact nodup_eraseDups _

/-- A class name with a repeated word and odd blanks, one of them an information separator. -/
def oddName : String := "b\u001ca  b"

/-- A class name with needless blanks and a word that is there twice. Adding classes to it puts both
right. -/
theorem unions_of_words_oddName :
    ((∀ name ∈ ["c", "a", "c"], Text.IsWord name) ∧ ∀ name ∈ ["d", "b"], Text.IsWord name)
      ∧ (∃ merged, mergeClassName (some oddName) ["c", "a", "c"] = some merged
        ∧ Text.wordsOf merged = ["b", "a", "c"])
      ∧ mergeClassName (mergeClassName (some oddName) ["c", "a", "c"]) ["d", "b"] = some "b a c d"
      ∧ mergeClassName (mergeClassName (some oddName) ["c", "a", "c"]) ["c", "a", "c"]
        = some "b a c"
      ∧ qualifying ["b a c b"] ["c", "b"] = qualifying ["b a", "c", "b"] ["c", "b"] := by
  have hfirst : ∀ name ∈ ["c", "a", "c"], Text.IsWord name := by
    unfold Text.IsWord
    decide
  have hsecond : ∀ name ∈ ["d", "b"], Text.IsWord name := by
    unfold Text.IsWord
    decide
  have hwords : (Text.wordsOf oddName ++ ["c", "a", "c"]).eraseDups = ["b", "a", "c"] := by
    decide +kernel
  have hboth : mergeClassName (some oddName) (["c", "a", "c"] ++ ["d", "b"]) = some "b a c d" := by
    decide +kernel
  have honce : mergeClassName (some oddName) ["c", "a", "c"] = some "b a c" := by decide +kernel
  obtain ⟨hunion, happend, hagain, hparts⟩ := unions_of_words (some oddName) hfirst hsecond
  obtain ⟨merged, hmerged, hnames, -⟩ := hunion (List.cons_ne_nil _ _)
  exact ⟨⟨hfirst, hsecond⟩, ⟨merged, hmerged, hnames.trans hwords⟩, happend.trans hboth,
    hagain.trans honce, hparts ["b a", "c", "b"] ["c", "b"]⟩

end Merge

/-! ## Where classes come from -/

/-- A name stands in the class attribute of an element. -/
def StandsIn (trees : List Html) (name : String) : Prop :=
  ∃ tag ∈ Html.tagsOf trees, ∃ value, tag.attribute? "class" = some value
    ∧ name ∈ Text.wordsOf value

theorem StandsIn.isWord {trees : List Html} {name : String} (h : StandsIn trees name) :
    Text.IsWord name := by
  obtain ⟨tag, -, value, -, hword⟩ := h
  exact Text.isWord_of_mem_wordsOf hword

/-- A class of a leaf is one of the stylesheet and one of the markup. -/
theorem mem_classesOf {defined : List String} {trees : List Html} {tag : Html.Tag} {name : String}
    (htag : tag ∈ Html.tagsOf trees) (h : name ∈ LeafIndex.classesOf defined tag) :
    name ∈ defined ∧ StandsIn trees name := by
  obtain ⟨hdefined, hvalue⟩ := LeafIndex.mem_classesOf_iff.1 h
  exact ⟨hdefined, tag, htag, hvalue⟩

/-- The classes of a container are those of an element. -/
theorem Container.mem_classes_of_mem_ofTags {defined : List String} {trees : List Html}
    {c : Container} (hc : c ∈ ofTags (Html.tagsOf trees) defined) {name : String}
    (h : name ∈ c.classes) : name ∈ defined ∧ StandsIn trees name := by
  obtain ⟨⟨⟨classes, keys⟩, id⟩, hmem, rfl⟩ := List.mem_map.1 hc
  obtain ⟨tag, htag, hparts⟩ := List.mem_filterMap.1 (List.fst_mem_of_mem_zipIdx hmem)
  obtain ⟨rfl, -, -⟩ := parts?_eq_some hparts
  exact mem_classesOf htag h

namespace Run

variable {document : Document} {html css : Option String}
  {thresholds : Except Settings.BadThresholds Thresholds}

/-- **The classes that a run adds come from both sides**: the stylesheet defines them, and they
stand in the markup. -/
theorem origin (run : Run document html css thresholds) {place : Nat} {name : String}
    (h : name ∈ (grantAt run.grants place).classes) :
    name ∈ definedFor document css
      ∧ ∃ trees, Html.parse (html.getD "") = .ok trees ∧ StandsIn trees name := by
  have hsound := Stock.sound_ofMarkup run.stock_eq
  obtain ⟨trees, hparse, hstock⟩ := Stock.ofMarkup_eq_ok.1 run.stock_eq
  unfold grantAt at h
  cases hgrant : run.grants[place]? with
  | none => simp [hgrant, Grant.classes] at h
  | some grant =>
    rw [hgrant, Option.getD_some] at h
    cases grant with
    | nothing => exact absurd h List.not_mem_nil
    -- a leaf has its classes from its element
    | leaf leaf =>
      have hleaf := List.mem_of_getElem? (leaf_of_grant hsound run.grants_eq hgrant).1
      rw [hstock] at hleaf
      obtain ⟨tag, htag, hclasses⟩ := LeafIndex.exists_tag_of_mem_ofTags hleaf
      have hname : name ∈ leaf.classes := h
      rw [hclasses] at hname
      have horigin := mem_classesOf htag hname
      exact ⟨horigin.1, trees, hparse, horigin.2⟩
    -- a container too
    | container c =>
      have hc := List.mem_of_getElem? (container_of_grant hsound run.grants_eq hgrant).1
      rw [hstock] at hc
      have horigin := Container.mem_classes_of_mem_ofTags hc h
      exact ⟨horigin.1, trees, hparse, horigin.2⟩

theorem isWord_of_mem_classes (run : Run document html css thresholds) {place : Nat} :
    ∀ name ∈ (grantAt run.grants place).classes, Text.IsWord name := by
  intro name hname
  obtain ⟨-, trees, -, hstands⟩ := run.origin hname
  exact hstands.isWord

/-- A target that asks for nothing gets nothing, so its class name stays as it is. -/
theorem classes_eq_nil (run : Run document html css thresholds) {place : Nat} {target : Target}
    (htarget : document.walk[place]? = some target) (hrequest : target.request = .nothing) :
    (grantAt run.grants place).classes = [] := by
  unfold grantAt
  cases hgrant : run.grants[place]? with
  | none => rfl
  | some grant =>
    obtain ⟨asked, hasked, hanswers⟩ := target_of_grant run.grants_eq hgrant
    obtain rfl := Option.some.inj (htarget.symm.trans hasked)
    rw [hrequest] at hanswers
    cases hanswers
    rfl

end Run

end BlockTheme.Recovery
