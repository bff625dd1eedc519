import BlockTheme.Proofs.Html.StartTags

/-!
# References with too many digits

A reader computes the number of a reference, and a decimal number with more than `Text.maxDigits` digits
is more than it can compute. So a text is refused that begins with such a reference
(`Html.parse_longReference`), or with a start tag in which one stands in the value of an attribute
(`Html.parse_longValue`). Both are refused for the number alone, whatever follows.
-/

namespace BlockTheme.Html

/-- A step of reading that takes a construct with such a number ends the reading. The step itself
goes through, since the tokenizer gives the number some value; it is the check beside it that fails.
-/
theorem readOn_of_longNumber {s rest : List Char} {found : List Token} {raw : Option (List Char)}
    {digits : Nat} (hs : s ≠ []) (hstep : readStep false s = .more found raw rest)
    (hlong : longNumber? s = some digits) (fuel : Nat) :
    readOn false (fuel + 1) none s = .error (.longNumber digits) := by
  rw [readOn.eq_def]
  cases s with
  | nil => exact absurd rfl hs
  | cons c r =>
    dsimp only
    rw [hstep]
    dsimp only
    rw [hlong]

/-- A text is refused if its first construct has such a number. -/
theorem parse_of_longNumber {s rest : List Char} {found : List Token} {raw : Option (List Char)}
    {digits : Nat} (hs : s ≠ []) (hstep : readStep false s = .more found raw rest)
    (hlong : longNumber? s = some digits) :
    parse (String.ofList s) = .error (.longNumber digits) := by
  rw [parse, String.toList_ofList, tokens, readOn_of_longNumber hs hstep hlong]
  rfl

/-- **A reference between tags with too many digits is refused**, whatever number they spell and whatever
comes after its semicolon. -/
theorem parse_longReference {digits : List Char} (hdigits : ∀ c ∈ digits, c.isDigit = true)
    (hlong : Text.maxDigits < digits.length) (rest : List Char) :
    parse (String.ofList ('&' :: '#' :: (digits ++ ';' :: rest)))
      = .error (.longNumber digits.length) := by
  have hne : digits.isEmpty = false := by
    cases digits with
    | nil => simp at hlong
    | cons c more => rfl
  -- the digits are read up to the semicolon
  have hnumber : readNumber? (digits ++ ';' :: rest) = some (false, digits, ';' :: rest) := by
    have hhex : (Text.hexDigit? ';').isSome = false := by decide
    have hspan : (digits ++ ';' :: rest).span Char.isDigit = (digits, ';' :: rest) :=
      Text.span_append hdigits (by simp)
    unfold readNumber?
    rw [hspan]
    simp [hne, Text.startsWith, hhex]
  -- the step goes on as if the number had a value: only the failure beside it stops the parser
  have hstep : readStep false ('&' :: '#' :: (digits ++ ';' :: rest))
      = .more [.text (numberedText false digits)] none rest := by
    rw [readStep, if_neg (by decide), if_pos rfl, readReference, hnumber]
    rfl
  refine parse_of_longNumber (List.cons_ne_nil _ _) hstep ?_
  rw [longNumber?, hnumber]
  simp [tooLong?, hlong]

/-- **A start tag is refused in which such a reference stands in the value of an attribute.** Of several
ones the first counts. -/
theorem parse_longValue {name : String} {attributes : List (String × String)} {closed : Bool}
    (hplain : (Markup.Head.tag name attributes closed).Plain)
    (hunquoted : (Markup.Head.tag name attributes closed).Unquoted) {digits : Nat}
    (hlong : attributes.findSome? (fun a => longNumberIn? a.2.toList) = some digits)
    (rest : List Char) :
    parse (String.ofList ((Markup.Head.tag name attributes closed).write ++ rest))
      = .error (.longNumber digits) := by
  have hstep := Markup.readStep_tag hplain hunquoted false rest
  have hwrite := Markup.Head.write_tag_append name attributes closed rest
  obtain ⟨c, hhead, hletter⟩ := hplain.1.1
  obtain ⟨more, hchars⟩ : ∃ more, name.toList = c :: more := List.head?_eq_some_iff.1 hhead
  have hstart := readStart_write hplain.1 hplain.2 hunquoted closed rest
  -- the tag is read back with its attributes, one of which has the number
  have hparts := readHead_write hplain.1 hplain.2 hunquoted closed rest
  rw [hwrite] at hstep ⊢
  refine parse_of_longNumber (List.cons_ne_nil _ _) hstep ?_
  rw [hchars, List.cons_append] at hstart hparts ⊢
  rw [longNumber?, if_pos hletter, hstart]
  dsimp only
  rw [hparts]
  dsimp only
  rw [List.findSome?_map]
  exact hlong

end BlockTheme.Html
