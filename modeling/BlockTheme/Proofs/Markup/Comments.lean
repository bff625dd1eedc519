import BlockTheme.Proofs.Markup.Segments

/-!
# The comments of block markup

Whether a scan of tidy markup finds the comments that were written, and nothing else, depends on the
texts that the markup carries: none in the attributes of a block may end a comment, and none in
those of an element may begin one (`Markup.Inert`, `Markup.scan_writeAll_iff`).
-/

namespace BlockTheme

open Comment (BeginsIn EndsIn)

namespace Markup

/-! ## Inert markup -/

mutual

/-- Markup whose texts begin no comment where there is none, and end none that there is. -/
def Inert : Markup → Prop
  | .text _ => True
  | .element _ attributes content =>
    (∀ a ∈ attributes, ¬Comment.BeginsIn a.2) ∧ InertAll content
  | .void _ attributes => ∀ a ∈ attributes, ¬Comment.BeginsIn a.2
  | .block _ attributes content => (∀ s ∈ attributes.texts, ¬Comment.EndsIn s) ∧ InertAll content
  | .reference _ attributes => ∀ s ∈ attributes.texts, ¬Comment.EndsIn s
  | .remark words => ¬Comment.EndsIn words

/-- Pieces that are all inert. -/
def InertAll : List Markup → Prop
  | [] => True
  | piece :: rest => Inert piece ∧ InertAll rest

end

/-- Inert pieces, one by one. `InertAll` follows the recursion of `Inert`, and this is how it is
used. -/
theorem inertAll_iff {pieces : List Markup} : InertAll pieces ↔ ∀ piece ∈ pieces, Inert piece := by
  induction pieces with
  | nil => simp [InertAll]
  | cons piece rest ih => rw [InertAll, ih, List.forall_mem_cons]

/-! ## Segments are inert -/

theorem not_endsIn_empty : ¬Comment.EndsIn "" := by decide

/-- **The attributes of a delimiter end it exactly if one of their texts does.** They are written as
JSON, where a text keeps its bracket and its hyphens, and cleaned, which drops only texts that are
empty. -/
theorem infix_writeBlockAttributes {attributes : Fields}
    (hkeys : ∀ key ∈ attributes.names, ¬Comment.EndsIn key) :
    Comment.closing <:+: writeBlockAttributes attributes
      ↔ ∃ s ∈ attributes.texts, Comment.EndsIn s := by
  -- what cleaning drops ends no comment
  have hclean : (∃ s ∈ attributes.clean.texts, Comment.EndsIn s)
      ↔ ∃ s ∈ attributes.texts, Comment.EndsIn s := by
    refine exists_congr fun s => and_congr_left fun hs => Fields.mem_texts_clean ?_ attributes
    rintro rfl
    exact not_endsIn_empty hs
  -- keys are harmless, so that only texts remain
  have hnames : ¬∃ key ∈ attributes.clean.names, Comment.EndsIn key := by
    rintro ⟨key, hkey, hends⟩
    exact hkeys key (Fields.mem_names_of_clean hkey) hends
  rw [← hclean]
  unfold writeBlockAttributes
  split
  · next hnone => simp [hnone, Comment.closing]
  · rw [Text.infix_cons (by decide) (by decide), Json.infix_compact, Json.names_object,
      Json.texts_object]
    simp [hnames]

/-- The words of a delimiter: its name is tidy, and the rest is what the attributes are written as.
`stop` is what stands at the end, a slash if the block has no content. -/
theorem infix_delimiter {name : String} (hname : TidyName name) {attributes : Fields}
    (hkeys : ∀ key ∈ attributes.names, ¬Comment.EndsIn key) (stop : List Char)
    (hstop : '>' ∉ stop) :
    Comment.closing <:+: [' ', 'w', 'p', ':']
        ++ (name.toList ++ (writeBlockAttributes attributes ++ ' ' :: stop))
      ↔ ∃ s ∈ attributes.texts, Comment.EndsIn s := by
  have hblank : ' ' ∉ Comment.closing := by decide
  have hmark : Comment.closing ≠ [] := by decide
  have hhead : ∀ c, (writeBlockAttributes attributes ++ ' ' :: stop).head? = some c →
      c ∉ Comment.closing := by
    intro c hc
    rw [head?_writeBlockAttributes] at hc
    exact Option.some.inj hc ▸ hblank
  -- neither the name nor the end of the delimiter has this character
  have hends : '>' ∈ Comment.closing := by decide
  rw [Text.infix_append_of_forall_not_mem (by simp [Comment.closing]) hmark,
    Text.infix_append_of_head hhead, Text.infix_append_cons hblank hmark,
    infix_writeBlockAttributes hkeys]
  simp [Text.not_infix_of_not_mem hends hname.2, Text.not_infix_of_not_mem hends hstop]

/-- A closing delimiter has no attributes and ends where it should. -/
theorem not_infix_closingWords {name : String} (hname : TidyName name) :
    ¬Comment.closing <:+: closingWords name := by
  refine Text.not_infix_of_not_mem (c := '>') (by decide) ?_
  simp [closingWords, hname.2]

/-- A remark ends where it should exactly if its words do not end it before. -/
theorem infix_remarkWords (words : String) :
    Comment.closing <:+: remarkWords words ↔ Comment.EndsIn words := by
  rw [remarkWords, Text.infix_cons (by decide) (by decide),
    Text.infix_append_cons (by decide) (by decide), Comment.EndsIn]
  simp [Comment.closing]

/-- The attributes of an element begin a comment exactly if one of their values does. The opening
cannot lie across a border, since it has none of the signs around a value in it. -/
theorem infix_writeAttributes {attributes : List (String × String)}
    (hnames : ∀ a ∈ attributes, '<' ∉ a.1.toList) :
    Comment.opening <:+: writeAttributes attributes
      ↔ ∃ a ∈ attributes, Comment.BeginsIn a.2 := by
  have hmark : Comment.opening ≠ [] := by decide
  induction attributes with
  | nil => simp [writeAttributes, Comment.opening]
  | cons a rest ih =>
    obtain ⟨hname, hrest⟩ := List.forall_mem_cons.1 hnames
    have hwrite : writeAttributes (a :: rest)
        = ' ' :: (a.1.toList ++ '=' :: (Char.ofNat 34
          :: (a.2.toList ++ Char.ofNat 34 :: writeAttributes rest))) := by
      simp [writeAttributes]
    rw [hwrite, Text.infix_cons (by decide) hmark, Text.infix_append_cons (by decide) hmark,
      Text.infix_cons (by decide) hmark, Text.infix_append_cons (by decide) hmark]
    -- a name has no such character, and neither have the signs around the value
    have hopen : ¬Comment.opening <:+: a.1.toList :=
      Text.not_infix_of_not_mem (by decide : '<' ∈ Comment.opening) hname
    simp [ih hrest, Comment.BeginsIn, hopen]

/-- What follows the name of a tag begins outside the beginning of a comment. -/
theorem head?_writeAttributes {attributes : List (String × String)} {stop : List Char}
    (hstop : ∀ c, stop.head? = some c → c ∉ Comment.opening) {c : Char}
    (h : (writeAttributes attributes ++ stop).head? = some c) : c ∉ Comment.opening := by
  cases attributes with
  | nil => exact hstop c h
  | cons a rest =>
    obtain rfl : ' ' = c := by simpa [writeAttributes] using h
    decide

/-- **A tag begins a comment exactly if the value of one of its attributes does.** Between the
values stand quotes and names, so that no mark runs from one value into the next. -/
theorem infix_startTag {tag : String} (htag : TidyTag tag)
    {attributes : List (String × String)} (hnames : ∀ a ∈ attributes, '<' ∉ a.1.toList)
    (stop : List Char) (hstop : ∀ c ∈ stop, c ∉ Comment.opening) :
    Comment.opening <:+: startTag tag attributes stop
      ↔ ∃ a ∈ attributes, Comment.BeginsIn a.2 := by
  obtain ⟨hne, hopen, hbang⟩ := htag
  have hhead : ∀ c, (writeAttributes attributes ++ stop).head? = some c → c ∉ Comment.opening :=
    fun c => head?_writeAttributes fun c hc => hstop c (List.mem_of_mem_head? hc)
  -- the name of the tag stands between the bracket and any exclamation mark
  have hstarts : ¬Comment.opening <+: startTag tag attributes stop := by
    have hnil : tag.toList ≠ [] := by simpa using hne
    obtain ⟨c, rest, hchars⟩ := List.exists_cons_of_ne_nil hnil
    have hc : '!' ≠ c := by
      rintro rfl
      exact hbang (by simp [hchars])
    simp [startTag, hchars, Comment.opening, List.cons_prefix_cons, hc]
  -- neither does what closes the tag
  have hstops : ¬Comment.opening <:+: stop := by
    intro h
    exact hstop '<' (h.subset (by decide)) (by decide)
  rw [startTag] at hstarts ⊢
  rw [List.infix_cons_iff, Text.infix_append_of_head hhead,
    Text.infix_append_of_head fun c hc => hstop c (List.mem_of_mem_head? hc),
    infix_writeAttributes hnames]
  simp [hstarts, hstops, Text.not_infix_of_not_mem (by decide : '<' ∈ Comment.opening) hopen]

/-- A tag that closes an element begins no comment. -/
theorem not_infix_endTag {tag : String} (htag : TidyTag tag) :
    ¬Comment.opening <:+: endTag tag := by
  have hstarts : ¬Comment.opening <+: endTag tag := by
    simp [endTag, Comment.opening, List.cons_prefix_cons]
  have hrest : '<' ∉ '/' :: (tag.toList ++ ['>']) := by simp [htag.2.1]
  rw [endTag] at hstarts ⊢
  rw [List.infix_cons_iff]
  simp [hstarts, Text.not_infix_of_not_mem (by decide : '<' ∈ Comment.opening) hrest]

mutual

/-- **The segments of a tidy piece are inert exactly if the piece is.** By induction on the piece:
each plain segment is a text or a tag, and each comment a delimiter or a remark. -/
theorem inert_segments_iff :
    ∀ {piece : Markup}, Tidy piece → ((∀ s ∈ segments piece, s.Inert) ↔ Inert piece)
  | .text written, h => by
    have hinert : ¬Comment.opening <:+: written.toList :=
      Text.not_infix_of_not_mem (c := '<') (by decide) h
    simpa [segments, Segment.Inert, Inert] using hinert
  | .element tag attributes content, h => by
    have hcontent := inert_segmentsAll_iff h.2.2
    have htag := infix_startTag h.1 h.2.1 ['>'] (by simp [Comment.opening])
    simp only [segments, List.forall_mem_cons, List.forall_mem_append, hcontent, Inert]
    simp [Segment.Inert, htag, not_infix_endTag h.1]
  | .void tag attributes, h => by
    have htag := infix_startTag h.1 h.2 ['/', '>'] (by simp [Comment.opening])
    simp [segments, Segment.Inert, Inert, htag]
  -- a block is an opening delimiter, its content and a closing one, with line breaks between them
  | .block name attributes content, h => by
    have hcontent := inert_segmentsAll_iff h.2.2
    have hopening : Comment.closing <:+: openingWords name attributes ↔ _ :=
      infix_delimiter h.1 h.2.1 [] (by decide)
    have hnewline : Segment.Inert (.plain ['\n']) := by
      show ¬Comment.opening <:+: ['\n']
      decide
    simp only [segments, List.forall_mem_cons, List.forall_mem_append, hcontent, Inert, hnewline]
    simp [Segment.Inert, hopening, not_infix_closingWords h.1]
  | .reference name attributes, h => by
    have hwords : Comment.closing <:+: referenceWords name attributes ↔ _ :=
      infix_delimiter h.1 h.2 ['/'] (by decide)
    simp [segments, Segment.Inert, Inert, hwords]
  | .remark words, _ => by simp [segments, Segment.Inert, Inert, infix_remarkWords]

theorem inert_segmentsAll_iff :
    ∀ {pieces : List Markup}, TidyAll pieces →
      ((∀ s ∈ segmentsAll pieces, s.Inert) ↔ InertAll pieces)
  | [], _ => by simp [segmentsAll, InertAll]
  | piece :: rest, h => by
    rw [segmentsAll, List.forall_mem_append, inert_segments_iff h.1, inert_segmentsAll_iff h.2,
      InertAll]

end

/-- **A scan of tidy markup finds the comments that were written exactly if the markup is inert.**
From the same statement for segments, as markup is written as its segments. -/
theorem scan_writeAll_iff {pieces : List Markup} (h : TidyAll pieces) :
    Comment.scan 0 (writeAll pieces) = comments pieces ↔ InertAll pieces := by
  rw [writeAll_eq_segments, comments, Segment.scan_writeAll_iff (closed_of_mem_segmentsAll h),
    inert_segmentsAll_iff h]

/-- The comment of a remark with words that end it is cut off there. -/
example : (Comment.scan 0 (writeAll [.remark "no --> more"])).map (fun c => String.ofList c.words)
    = [" no "] := by decide

/-! ## Pieces with something between them -/

/-- What holds of a separator holds of all pieces with separators between them exactly if it holds
of all pieces. -/
theorem forall_mem_intersperse {P : Markup → Prop} {separator : Markup} (h : P separator)
    (pieces : List Markup) :
    (∀ piece ∈ pieces.intersperse separator, P piece) ↔ ∀ piece ∈ pieces, P piece := by
  induction pieces with
  | nil => simp
  | cons piece rest ih =>
    cases rest with
    | nil => simp
    | cons next rest =>
      rw [List.intersperse_cons_cons, List.forall_mem_cons, List.forall_mem_cons, ih]
      simp [h]

theorem inertAll_append {a b : List Markup} : InertAll (a ++ b) ↔ InertAll a ∧ InertAll b := by
  simp only [inertAll_iff, List.forall_mem_append]

theorem tidyAll_append {a b : List Markup} : TidyAll (a ++ b) ↔ TidyAll a ∧ TidyAll b := by
  simp only [tidyAll_iff, List.forall_mem_append]

theorem inertAll_spaced {pieces : List Markup} :
    InertAll (spaced pieces) ↔ ∀ piece ∈ pieces, Inert piece := by
  rw [inertAll_iff, spaced, forall_mem_intersperse trivial]

theorem tidyAll_spaced {pieces : List Markup} :
    TidyAll (spaced pieces) ↔ ∀ piece ∈ pieces, Tidy piece := by
  rw [tidyAll_iff, spaced, forall_mem_intersperse (by show '<' ∉ "\n\n".toList; decide)]

/-- Line breaks around pieces change nothing either. Most blocks have their content framed by them.
-/
theorem inertAll_framed {pieces : List Markup} :
    InertAll ([newline] ++ pieces ++ [newline]) ↔ InertAll pieces := by
  simp [inertAll_append, InertAll, newline, Inert]

theorem tidy_newline : Tidy newline := by
  show '<' ∉ "\n".toList
  decide

/-- Names inside the frame are the ones that count. -/
theorem tidyAll_framed {pieces : List Markup} :
    TidyAll ([newline] ++ pieces ++ [newline]) ↔ TidyAll pieces := by
  simp [tidyAll_append, TidyAll, tidy_newline]

/-! ## Escaped texts -/

theorem not_mem_dataChar (c : Char) : '<' ∉ Text.Escape.dataChar c := by
  unfold Text.Escape.dataChar
  split
  · decide
  · decide
  · decide
  · next hamp hlt hgt => simpa using fun h : '<' = c => hlt h.symm

theorem tidy_data (s : String) : Tidy (data s) := by
  show '<' ∉ (Text.Escape.data s).toList
  rw [Text.Escape.data, String.toList_ofList]
  intro h
  obtain ⟨c, -, hc⟩ := List.mem_flatMap.1 h
  exact not_mem_dataChar c hc

/-- An escaped value of an attribute begins no comment. -/
theorem not_beginsIn_attributeValue (s : String) : ¬BeginsIn (Text.Escape.attributeValue s) := by
  refine Text.not_infix_of_not_mem (c := '<') (by decide) ?_
  rw [Text.Escape.attributeValue, String.toList_ofList]
  intro h
  obtain ⟨c, -, hc⟩ := List.mem_flatMap.1 h
  unfold Text.Escape.attributeChar at hc
  split at hc
  · exact absurd hc (by decide)
  · exact not_mem_dataChar c hc

/-- A number in an attribute begins no comment, for want of brackets and exclamation marks. -/
theorem not_beginsIn_displayNumber (n : Number) :
    ¬BeginsIn (String.ofList (Json.displayNumber n)) := by
  refine Text.not_infix_of_not_mem (c := '<') (by decide) ?_
  rw [String.toList_ofList]
  intro hmem
  cases n with
  | int n => simpa using Number.mem_digits hmem
  | float x =>
    simpa [Binary64.IsNumberChar, Json.displayLayout] using Binary64.isNumberChar_of_mem_text hmem

end Markup

end BlockTheme
