import BlockTheme.Html
import BlockTheme.Proofs.Markup.Heads
import BlockTheme.Proofs.Text.Margins

/-!
# Reading start tags back

A value between double quotes is read up to the first double quote, so it is read back exactly if it
holds none (`Html.readValue_quoted_iff`). A start tag whose names are plain and whose values hold no
double quote is read back with the attributes that were written, and the text after it is left
(`Markup.readStep_tag`).
-/

namespace BlockTheme

/-- The double quote. -/
def quote : Char := Char.ofNat 34

/-- A text without a double quote. -/
def Text.Unquoted (s : String) : Prop := quote ∉ s.toList

instance (s : String) : Decidable (Text.Unquoted s) := inferInstanceAs (Decidable (_ ∉ _))

namespace Html

open Text (isBlank)

/-! ## Values -/

/-- The text up to the first double quote, if there is none in it. -/
theorem untilStop?_quote {value : List Char} (h : quote ∉ value) (rest : List Char) :
    untilStop? (Text.dropStart? [quote]) (value ++ quote :: rest) = some (value, rest) := by
  induction value with
  | nil => rfl
  | cons c value ih =>
    have hc : quote ≠ c := fun heq => h (heq ▸ List.mem_cons_self)
    have hvalue : quote ∉ value := fun hin => h (List.mem_cons_of_mem _ hin)
    rw [List.cons_append, untilStop?, Text.dropStart?, if_neg hc]
    simp only [ih hvalue, Option.map_some]

/-- A value in quotes is read up to the second quote. It must not hold a quote itself, which is the
one condition that the read-back of attributes comes to. -/
theorem readValue_quoted (last : Char) {value : List Char} (h : quote ∉ value) (rest : List Char) :
    readValue last ('=' :: quote :: (value ++ quote :: rest)) = (value, quote, rest) := by
  have hskip : skipBlanks ('=' :: quote :: (value ++ quote :: rest))
      = '=' :: quote :: (value ++ quote :: rest) := rfl
  have hequals : ('=' :: quote :: (value ++ quote :: rest)).span (· == '=')
      = (['='], quote :: (value ++ quote :: rest)) := rfl
  have hgap : (quote :: (value ++ quote :: rest)).span isBlank
      = ([], quote :: (value ++ quote :: rest)) := rfl
  have hquote : isQuote quote = true := by decide
  unfold readValue
  rw [hskip, hequals]
  dsimp only
  rw [hgap]
  dsimp only
  rw [if_neg (by decide), if_pos hquote, untilStop?_quote h]

/-- **A quoted value is read back exactly if it holds no double quote.** With one in it the value
ends there, and so it is shorter than what was written. -/
theorem readValue_quoted_iff (last : Char) (value rest : List Char) :
    readValue last ('=' :: quote :: (value ++ quote :: rest)) = (value, quote, rest)
      ↔ quote ∉ value := by
  constructor
  · intro hread hmem
    -- the value ends at its first double quote
    obtain ⟨front, back, rfl, hfront⟩ := List.eq_append_cons_of_mem hmem
    have hfirst := readValue_quoted last hfront (back ++ quote :: rest)
    rw [List.append_assoc, List.cons_append] at hread
    have hvalue := congrArg Prod.fst (hfirst.symm.trans hread)
    simp at hvalue
  · exact fun h => readValue_quoted last h rest

/-! ## Attributes -/

/-- The name of an attribute as it is read back: in lower case, and with nothing in it that ends
it. -/
def IsAttributeName (name : String) : Prop :=
  name.toList ≠ [] ∧ (∀ c ∈ name.toList, isBlank c = false ∧ c ∉ ['/', '=', '>'])
    ∧ Text.lower name.toList = name.toList

instance (name : String) : Decidable (IsAttributeName name) :=
  inferInstanceAs (Decidable (_ ∧ _ ∧ _))

/-- The end of a tag ends its attributes. -/
theorem readAttributes_end (fuel : Nat) (last : Char) {stop : List Char}
    (hstop : stop = ['>'] ∨ stop = ['/', '>']) (rest : List Char) :
    readAttributes (fuel + 1) last (stop ++ rest) = ([], stop ++ rest) := by
  rcases hstop with rfl | rfl
  · have hskip : skipSeparators last ('>' :: rest) = (last, '>' :: rest) := rfl
    simp [readAttributes, hskip]
  · have hskip : skipSeparators last ('/' :: '>' :: rest) = (last, '/' :: '>' :: rest) := rfl
    simp [readAttributes, hskip]

/-- **Attributes without double quotes in their values are read back** as they were written. The
induction is on the attributes, each of which takes one step of fuel. -/
theorem readAttributes_writeAttributes {attributes : List (String × String)}
    (hnames : ∀ a ∈ attributes, IsAttributeName a.1)
    (hvalues : ∀ a ∈ attributes, Text.Unquoted a.2) {stop : List Char}
    (hstop : stop = ['>'] ∨ stop = ['/', '>']) (rest : List Char) {fuel : Nat}
    (hfuel : attributes.length < fuel) (last : Char) :
    readAttributes fuel last (Markup.writeAttributes attributes ++ (stop ++ rest))
      = (attributes.map fun a => (a.1.toList, a.2.toList), stop ++ rest) := by
  induction attributes generalizing fuel last with
  | nil =>
    obtain ⟨fuel, rfl⟩ := Nat.exists_eq_succ_of_ne_zero (Nat.ne_of_gt hfuel)
    exact readAttributes_end fuel last hstop rest
  | cons a more ih =>
    obtain ⟨fuel, rfl⟩ := Nat.exists_eq_succ_of_ne_zero (Nat.ne_of_gt (Nat.zero_lt_of_lt hfuel))
    obtain ⟨⟨hne, hchars, hlower⟩, hmoreNames⟩ := List.forall_mem_cons.1 hnames
    obtain ⟨hvalue, hmoreValues⟩ := List.forall_mem_cons.1 hvalues
    obtain ⟨c, name, hname⟩ := List.exists_cons_of_ne_nil hne
    rw [hname] at hchars hlower
    obtain ⟨⟨hblank, hc⟩, hrest⟩ := List.forall_mem_cons.1 hchars
    simp only [List.mem_cons, List.not_mem_nil, or_false, not_or] at hc
    have hwrite : Markup.writeAttributes (a :: more) ++ (stop ++ rest)
        = ' ' :: c :: (name ++ '=' :: quote :: (a.2.toList ++ quote
          :: (Markup.writeAttributes more ++ (stop ++ rest)))) := by
      simp [Markup.writeAttributes, hname, quote]
    -- the blank in front of an attribute is passed over
    have hskip : ∀ s, skipSeparators last (' ' :: c :: s) = (' ', c :: s) := by
      intro s
      have hspace : isBlank ' ' = true := by decide
      simp [skipSeparators, hspace, hblank, hc]
    -- its name ends at the equals sign, and its value at the second quote
    have hspan : ∀ rest, (name ++ '=' :: rest).span
        (fun d => !isBlank d && d != '/' && d != '=' && d != '>') = (name, '=' :: rest) := by
      intro rest
      refine Text.span_append (fun d hd => ?_) (by simp)
      obtain ⟨hblank, hd⟩ := hrest d hd
      simp only [List.mem_cons, List.not_mem_nil, or_false, not_or] at hd
      simp [hblank, hd]
    have hsep : separates ' ' = true := by decide
    have hmoreFuel : more.length < fuel := by simpa using hfuel
    have hmore := ih hmoreNames hmoreValues hmoreFuel quote
    rw [hwrite, readAttributes, hskip]
    dsimp only
    rw [if_pos (by simp [hsep, hc]), hspan]
    dsimp only
    rw [readValue_quoted _ hvalue]
    dsimp only
    rw [hmore, hlower, List.map_cons, hname]

/-! ## Tags -/

/-- The name of a tag as it is read back: it begins with a letter, is in lower case, holds nothing that
ends it, and is none whose content is raw text. -/
def IsTagName (name : String) : Prop :=
  (∃ c ∈ name.toList.head?, isLetter c = true) ∧ (∀ c ∈ name.toList, isTagChar c = true)
    ∧ Text.lower name.toList = name.toList ∧ name.toList ∉ rawElements

instance (name : String) : Decidable (IsTagName name) :=
  inferInstanceAs (Decidable (_ ∧ _ ∧ _ ∧ _))

/-- Every attribute takes a character at least, so that the reader's fuel lasts. -/
theorem length_le_writeAttributes (attributes : List (String × String)) :
    attributes.length ≤ (Markup.writeAttributes attributes).length := by
  induction attributes with
  | nil => simp
  | cons a more ih =>
    rw [Markup.writeAttributes, List.flatMap_cons, ← Markup.writeAttributes, List.length_append,
      List.length_cons, List.length_cons]
    omega

/-- The name of a tag ends where its attributes begin. -/
theorem isTagChar_head?_writeAttributes (attributes : List (String × String))
    {stop : List Char} (hstop : stop = ['>'] ∨ stop = ['/', '>']) (rest : List Char) :
    ∃ c s, Markup.writeAttributes attributes ++ (stop ++ rest) = c :: s ∧ isTagChar c = false := by
  cases attributes with
  | nil =>
    rcases hstop with rfl | rfl
    · exact ⟨'>', rest, rfl, by decide⟩
    · exact ⟨'/', '>' :: rest, rfl, by decide⟩
  | cons a more => exact ⟨' ', _, rfl, by decide⟩

/-- The end of a start tag. -/
def tagEnd (closed : Bool) : List Char := if closed then ['/', '>'] else ['>']

/-- A tag ends in a bracket, with a slash in front of it or without. -/
theorem tagEnd_cases (closed : Bool) : tagEnd closed = ['>'] ∨ tagEnd closed = ['/', '>'] := by
  cases closed
  · exact Or.inl rfl
  · exact Or.inr rfl

/-- The parts of a start tag after its bracket, with the values as they were written. Character
references are still in them; they are replaced in a second step (`readStart_write`). -/
theorem readHead_write {name : String} (hname : IsTagName name) {attributes : List (String × String)}
    (hnames : ∀ a ∈ attributes, IsAttributeName a.1)
    (hvalues : ∀ a ∈ attributes, Text.Unquoted a.2) (closed : Bool) (rest : List Char) :
    readHead (name.toList ++ (Markup.writeAttributes attributes ++ (tagEnd closed ++ rest)))
      = (name.toList, attributes.map fun a => (a.1.toList, a.2.toList), tagEnd closed ++ rest) := by
  obtain ⟨-, hchars, -, -⟩ := hname
  obtain ⟨c, s, hnext, hc⟩ :=
    isTagChar_head?_writeAttributes attributes (tagEnd_cases closed) rest
  have hstop : ∀ d ∈ (c :: s).head?, isTagChar d = false := by simpa using hc
  -- the name ends where the attributes or the end of the tag begin
  have hspan := Text.span_append hchars hstop
  rw [← hnext] at hspan
  -- every attribute takes one character at least
  have hfuel : attributes.length
      < (Markup.writeAttributes attributes ++ (tagEnd closed ++ rest)).length := by
    have hlength := length_le_writeAttributes attributes
    have hend : 0 < (tagEnd closed).length := by
      rcases tagEnd_cases closed with h | h <;> simp [h]
    rw [List.length_append, List.length_append]
    omega
  rw [readHead, hspan]
  dsimp only
  rw [readAttributes_writeAttributes hnames hvalues (tagEnd_cases closed) rest hfuel]

/-- A start tag after its bracket is read as the token with its name and its attributes, and the
reader goes on behind it. -/
theorem readStart_write {name : String} (hname : IsTagName name) {attributes : List (String × String)}
    (hnames : ∀ a ∈ attributes, IsAttributeName a.1)
    (hvalues : ∀ a ∈ attributes, Text.Unquoted a.2) (closed : Bool) (rest : List Char) :
    readStart (name.toList ++ (Markup.writeAttributes attributes ++ (tagEnd closed ++ rest)))
      = .complete [.start name.toList (attributes.map fun a => (a.1.toList, unescape a.2.toList))
          closed] none rest := by
  have hhead := readHead_write hname hnames hvalues closed rest
  obtain ⟨-, -, hlower, hraw⟩ := hname
  unfold readStart
  rw [hhead]
  dsimp only
  -- references are replaced when the tag is complete
  rw [List.map_map, hlower]
  cases closed with
  | false => simp [tagEnd, hraw]
  | true => simp [tagEnd]

end Html

namespace Markup

/-- A head whose names are read back as they are written. -/
def Head.Plain : Head → Prop
  | .tag name attributes _ => Html.IsTagName name ∧ ∀ a ∈ attributes, Html.IsAttributeName a.1
  | .delimiter _ _ => True

/-- A head whose values hold no double quote. -/
def Head.Unquoted : Head → Prop
  | .tag _ attributes _ => ∀ a ∈ attributes, Text.Unquoted a.2
  | .delimiter _ _ => True

/-- A head in which every attribute is read up to the double quote that was written after its value,
whatever follows. -/
def Head.IsClosed : Head → Prop
  | .tag _ attributes _ => ∀ a ∈ attributes, ∀ last rest,
      Html.readValue last ('=' :: quote :: (a.2.toList ++ quote :: rest)) = (a.2.toList, quote, rest)
  | .delimiter _ _ => True

/-- A head that is read with the attributes that were written and no others, whatever follows. -/
def Head.IsReadBack : Head → Prop
  | .tag name attributes closed => ∀ final rest,
      Html.readStep final ((Head.tag name attributes closed).write ++ rest)
        = .more [.start name.toList (attributes.map fun a => (a.1.toList, Html.unescape a.2.toList))
            closed] none rest
  | .delimiter _ _ => True

/-- **The attributes of a head end where they were written to end exactly if there is no double
quote in them.** If there is one, a reader that goes by quotes is inside a value where the program
is outside. -/
theorem isClosed_iff {head : Head} : head.IsClosed ↔ head.Unquoted := by
  cases head with
  | delimiter _ _ => exact Iff.rfl
  | tag name attributes closed =>
    refine forall₂_congr fun a _ => ?_
    constructor
    · exact fun h => (Html.readValue_quoted_iff ' ' a.2.toList []).1 (h ' ' [])
    · exact fun h last rest => (Html.readValue_quoted_iff last a.2.toList rest).2 h

/-- A tag is its bracket, its name, its attributes and its end. -/
theorem Head.write_tag_append (name : String) (attributes : List (String × String)) (closed : Bool)
    (rest : List Char) :
    (Head.tag name attributes closed).write ++ rest
      = '<' :: (name.toList ++ (writeAttributes attributes ++ (Html.tagEnd closed ++ rest))) := by
  simp [Head.write, startTag, Html.tagEnd]

/-- **A plain start tag without double quotes in its values is read back.** Whatever follows it, one
step of reading takes the tag with the attributes that were written, and leaves the rest. -/
theorem readStep_tag {name : String} {attributes : List (String × String)} {closed : Bool}
    (hplain : (Head.tag name attributes closed).Plain)
    (hunquoted : (Head.tag name attributes closed).Unquoted) (final : Bool) (rest : List Char) :
    Html.readStep final ((Head.tag name attributes closed).write ++ rest)
      = .more [.start name.toList (attributes.map fun a => (a.1.toList, Html.unescape a.2.toList))
          closed] none rest := by
  obtain ⟨hname, hnames⟩ := hplain
  obtain ⟨c, hhead, hletter⟩ := hname.1
  obtain ⟨more, hchars⟩ : ∃ more, name.toList = c :: more := List.head?_eq_some_iff.1 hhead
  have hwrite := Head.write_tag_append name attributes closed rest
  -- a letter is no mark of an end tag, a declaration or an instruction
  have hbracket : ∀ s, Html.readBracket final (c :: s)
      = (Html.readStart (c :: s)).step final ('<' :: c :: s) := by
    intro s
    have hmarks : ∀ mark ∈ ['/', '?', '!'], Html.isLetter mark = false := by decide
    unfold Html.readBracket
    split
    · next h => simp at h
    · next h => simp [hmarks, (List.cons.inj h).1] at hletter
    · next h => simp [hmarks, (List.cons.inj h).1] at hletter
    · next h => simp [hmarks, (List.cons.inj h).1] at hletter
    · next h =>
      obtain ⟨rfl, rfl⟩ := List.cons.inj h
      rw [if_pos hletter]
  have hstart := Html.readStart_write hname hnames hunquoted closed rest
  rw [hwrite, Html.readStep, if_pos rfl]
  rw [hchars, List.cons_append] at hstart ⊢
  rw [hbracket, hstart]
  rfl

/-- A head in which no value has a quote is read back. -/
theorem isReadBack_of_unquoted {head : Head} (hplain : head.Plain) (hunquoted : head.Unquoted) :
    head.IsReadBack := by
  cases head with
  | delimiter _ _ => trivial
  | tag name attributes closed => exact readStep_tag hplain hunquoted

end Markup

end BlockTheme
