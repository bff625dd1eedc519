import BlockTheme.Proofs.Text.Marks

/-!
# Scanning for comments

A reader of a text finds its comments from left to right: from `<!--` up to the next `-->`, and so
on after that (`Comment.scan`). A writer knows the comments that it put there (`Segment.comments`).
The two lists are the same exactly if no plain segment begins a comment and none of the comments
ends before its end (`Segment.scan_writeAll_iff`).
-/

namespace BlockTheme

/-- A comment in a text: the place where it begins, and the words between its two ends. -/
structure Comment where
  place : Nat
  words : List Char
  deriving DecidableEq, Repr

namespace Comment

/-- What begins a comment. -/
def opening : List Char := ['<', '!', '-', '-']

/-- What ends one. -/
def closing : List Char := ['-', '-', '>']

/-- A string that would begin a comment. -/
def BeginsIn (s : String) : Prop := opening <:+: s.toList

/-- A string that would end a comment. -/
def EndsIn (s : String) : Prop := closing <:+: s.toList

/-- A string that neither begins nor ends a comment. -/
def Quiet (s : String) : Prop := ¬BeginsIn s ∧ ¬EndsIn s

instance (s : String) : Decidable (BeginsIn s) := inferInstanceAs (Decidable (_ <:+: _))

instance (s : String) : Decidable (EndsIn s) := inferInstanceAs (Decidable (_ <:+: _))

mutual

/-- The comments of a text that begins at a place outside of comments. -/
def scan (place : Nat) : List Char → List Comment
  | '<' :: '!' :: '-' :: '-' :: rest => scanWords place (place + 4) [] rest
  | _ :: rest => scan (place + 1) rest
  | [] => []

/-- The comments of a text that begins inside of one; what was seen of that stands in reverse. A
comment that is not ended reaches to the end of the text. -/
def scanWords (start place : Nat) (seen : List Char) : List Char → List Comment
  | '-' :: '-' :: '>' :: rest => ⟨start, seen.reverse⟩ :: scan (place + 3) rest
  | c :: rest => scanWords start (place + 1) (c :: seen) rest
  | [] => [⟨start, seen.reverse⟩]

end

@[simp] theorem scan_nil (place : Nat) : scan place [] = [] := by rw [scan]

/-- A comment that begins here is read up to its end. -/
theorem scan_opening (place : Nat) (rest : List Char) :
    scan place (opening ++ rest) = scanWords place (place + 4) [] rest := by
  simp [opening, scan]

theorem scanWords_closing (start place : Nat) (seen rest : List Char) :
    scanWords start place seen (closing ++ rest)
      = ⟨start, seen.reverse⟩ :: scan (place + 3) rest := by
  simp [closing, scanWords]

/-- A character at which no comment begins is passed over. -/
theorem scan_cons {c : Char} {rest : List Char} (h : ¬opening <+: c :: rest) (place : Nat) :
    scan place (c :: rest) = scan (place + 1) rest := by
  rw [scan]
  rintro after rfl hrest
  exact h ⟨after, by simp [opening, hrest]⟩

theorem scanWords_cons {c : Char} {rest : List Char} (h : ¬closing <+: c :: rest)
    (start place : Nat) (seen : List Char) :
    scanWords start place seen (c :: rest) = scanWords start (place + 1) (c :: seen) rest := by
  rw [scanWords]
  rintro after rfl hrest
  exact h ⟨after, by simp [closing, hrest]⟩

/-! ## Plain text -/

/-- A text that cannot begin with its last characters what the text after it goes on with. -/
def Closed (text : List Char) : Prop := '<' ∉ text ∨ text.getLast? = some '>'

/-- A closed text is closed from its second character on, as only its end counts. -/
theorem Closed.of_cons {c : Char} {rest : List Char} (h : Closed (c :: rest)) : Closed rest := by
  rcases h with hnone | hlast
  · exact Or.inl fun hmem => hnone (List.mem_cons_of_mem _ hmem)
  · cases rest with
    | nil => exact Or.inl (by simp)
    | cons d rest => exact Or.inr (by simpa using hlast)

/-- Where a text is closed, a comment that begins in it has all of its opening in it. A text that is
not closed has a part of an opening at its end, which what follows could complete. -/
theorem Closed.prefix_of_append {text rest : List Char} (h : Closed text) (hne : text ≠ [])
    (hopen : opening <+: text ++ rest) : opening <+: text := by
  -- what begins a comment holds a bracket and ends in none, wherever it is cut off
  have hshort : ∀ front, front <+: opening → front ≠ [] → ¬Closed front := by
    intro front hfront hfront'
    have hall : ∀ front ∈ opening.inits, front ≠ [] → ¬Closed front := by
      unfold Closed
      decide
    exact hall front ((List.mem_inits _ _).2 hfront) hfront'
  rcases List.prefix_or_prefix_of_prefix hopen (List.prefix_append text rest) with hin | hout
  · exact hin
  · exact absurd h (hshort text hout hne)

/-- **A closed text in which no comment begins is passed over.** The scan arrives behind it in the
state in which it was in front. -/
theorem scan_append {text : List Char} (h : Closed text) (hopen : ¬opening <:+: text)
    (place : Nat) (rest : List Char) :
    scan place (text ++ rest) = scan (place + text.length) rest := by
  induction text generalizing place with
  | nil => rfl
  | cons c text ih =>
    have hc : ¬opening <+: c :: text ++ rest := fun hstarts =>
      hopen (h.prefix_of_append (by simp) hstarts).isInfix
    rw [List.cons_append] at hc ⊢
    rw [scan_cons hc, ih h.of_cons fun hin => hopen (List.infix_cons hin), List.length_cons]
    congr 1
    omega

/-- A comment that is begun is found, even if it is not ended. It stands in front of all others. -/
theorem exists_scanWords (start place : Nat) (seen text : List Char) :
    ∃ found more, scanWords start place seen text = found :: more ∧ found.place = start := by
  induction text generalizing place seen with
  | nil => exact ⟨_, [], by rw [scanWords], rfl⟩
  | cons c text ih =>
    by_cases hclose : closing <+: c :: text
    · obtain ⟨after, hafter⟩ := hclose
      rw [← hafter, scanWords_closing]
      exact ⟨_, _, rfl, rfl⟩
    · rw [scanWords_cons hclose]
      exact ih (place + 1) (c :: seen)

/-- In a text in which a comment begins, the scan finds one that begins there. This is the converse
of passing over: a plain text with an opening in it cannot be scanned as it was meant. -/
theorem scan_append_of_infix {text : List Char} (hopen : opening <:+: text) (place : Nat)
    (rest : List Char) :
    ∃ found more, scan place (text ++ rest) = found :: more
      ∧ found.place < place + text.length := by
  induction text generalizing place with
  | nil => simp [opening] at hopen
  | cons c text ih =>
    -- one that begins here may take its last characters from the rest
    by_cases hhere : opening <+: c :: text ++ rest
    · obtain ⟨after, hafter⟩ := hhere
      obtain ⟨found, more, hscan, hplace⟩ := exists_scanWords place (place + 4) [] after
      refine ⟨found, more, ?_, ?_⟩
      · rw [← hafter, scan_opening, hscan]
      · rw [hplace, List.length_cons]
        omega
    · have hlater : opening <:+: text := by
        rcases List.infix_cons_iff.1 hopen with hstarts | hlater
        · exact absurd (hstarts.trans (List.prefix_append _ _)) hhere
        · exact hlater
      obtain ⟨found, more, hscan, hplace⟩ := ih hlater (place + 1)
      rw [List.cons_append] at hhere ⊢
      refine ⟨found, more, by rw [scan_cons hhere, hscan], ?_⟩
      rw [List.length_cons]
      omega

/-! ## Comments -/

/-- Words that do not end a comment do not end it together with what ends it. -/
theorem not_prefix_append_closing {c : Char} {words rest : List Char}
    (h : ¬closing <+: c :: words) : ¬closing <+: c :: (words ++ (closing ++ rest)) := by
  intro hstarts
  refine h ?_
  cases words with
  | nil => simp [closing, List.cons_prefix_cons] at hstarts
  | cons d words =>
    cases words with
    | nil => simp [closing, List.cons_prefix_cons] at hstarts
    | cons e words => simpa [closing, List.cons_prefix_cons] using hstarts

/-- **Words that do not end the comment are read up to the end that was written.** By induction on
the words. -/
theorem scanWords_append {words : List Char} (h : ¬closing <:+: words) (start place : Nat)
    (seen rest : List Char) :
    scanWords start place seen (words ++ (closing ++ rest))
      = ⟨start, seen.reverse ++ words⟩ :: scan (place + words.length + 3) rest := by
  induction words generalizing place seen with
  | nil => simp [scanWords_closing]
  | cons c words ih =>
    have hc : ¬closing <+: c :: words := fun hstarts => h hstarts.isInfix
    rw [List.cons_append, scanWords_cons (not_prefix_append_closing hc),
      ih fun hin => h (List.infix_cons hin)]
    simp only [List.reverse_cons, List.append_assoc, List.singleton_append, List.length_cons]
    congr 2
    omega

/-- Words that end the comment are not read to their end. So a comment whose words hold the closing
is found with shorter words than it was written with. -/
theorem scanWords_append_of_infix {words : List Char} (h : closing <:+: words) (start place : Nat)
    (seen rest : List Char) :
    ∃ found more, scanWords start place seen (words ++ rest) = found :: more
      ∧ found.words.length < seen.length + words.length := by
  -- on the words: the comment ends at the first place where the end stands
  induction words generalizing place seen with
  | nil => simp [closing] at h
  | cons c words ih =>
    by_cases hhere : closing <+: c :: (words ++ rest)
    · obtain ⟨after, hafter⟩ := hhere
      refine ⟨⟨start, seen.reverse⟩, scan (place + 3) after, ?_, by simp⟩
      rw [List.cons_append, ← hafter, scanWords_closing]
    · have hlater : closing <:+: words := by
        refine (List.infix_cons_iff.1 h).resolve_left fun hstarts => hhere ?_
        exact hstarts.trans (List.prefix_append (c :: words) rest)
      obtain ⟨found, more, hscan, hlength⟩ := ih hlater (place + 1) (c :: seen)
      refine ⟨found, more, ?_, ?_⟩
      · rw [List.cons_append, scanWords_cons hhere, hscan]
      · rw [List.length_cons] at hlength ⊢
        omega

end Comment

/-! ## Segments -/

/-- A part of a written text: plain text, or a comment with its words. -/
inductive Segment where
  | plain (text : List Char)
  | comment (words : List Char)

namespace Segment

/-- The text of a segment. -/
def write : Segment → List Char
  | .plain text => text
  | .comment words => Comment.opening ++ (words ++ Comment.closing)

/-- The text of segments one behind the other. -/
def writeAll (segments : List Segment) : List Char := segments.flatMap write

/-- The comments that were written, at their places. -/
def comments (place : Nat) : List Segment → List Comment
  | [] => []
  | .plain text :: rest => comments (place + text.length) rest
  | .comment words :: rest => ⟨place, words⟩ :: comments (place + words.length + 7) rest

/-- A segment that no comment begins in, or that ends where it should. -/
def Inert : Segment → Prop
  | .plain text => ¬Comment.opening <:+: text
  | .comment words => ¬Comment.closing <:+: words

/-- Plain text that is closed, or a comment. -/
def Closed : Segment → Prop
  | .plain text => Comment.Closed text
  | .comment _ => True

theorem writeAll_cons (segment : Segment) (rest : List Segment) :
    writeAll (segment :: rest) = segment.write ++ writeAll rest := rfl

/-- Comments stand behind the place where the segments begin. A comment that the scan finds before
all of them was therefore never written. -/
theorem le_place_of_mem_comments {segments : List Segment} {place : Nat} {found : Comment}
    (h : found ∈ comments place segments) : place ≤ found.place := by
  induction segments generalizing place with
  | nil => simp [comments] at h
  | cons segment rest ih =>
    cases segment with
    | plain text =>
      have hle := ih h
      omega
    | comment words =>
      rcases List.mem_cons.1 h with rfl | hlater
      · exact Nat.le_refl _
      · have hle := ih hlater
        omega

theorem comments_append (place : Nat) (a b : List Segment) :
    comments place (a ++ b)
      = comments place a
        ++ comments (place + (writeAll a).length) b := by
  induction a generalizing place with
  | nil => simp [comments, writeAll]
  | cons segment rest ih =>
    cases segment with
    | plain text =>
      rw [List.cons_append, comments, comments, ih, writeAll_cons,
        write, List.length_append, Nat.add_assoc]
    -- a comment takes seven characters more than its words
    | comment words =>
      have hlength : (write (.comment words)).length = words.length + 7 := by
        simp only [write, Comment.opening, Comment.closing, List.length_append,
          List.length_cons, List.length_nil]
        omega
      rw [List.cons_append, comments, comments, ih, writeAll_cons,
        List.length_append, hlength, List.cons_append]
      simp only [Nat.add_assoc]

/-- **The scan of closed segments finds the comments that were written exactly if every segment is
inert.** If one is not inert, then the first such segment gives a comment that was not written, or
cuts one short. -/
theorem scan_writeAll_iff {segments : List Segment} (hclosed : ∀ s ∈ segments, s.Closed)
    (place : Nat) :
    Comment.scan place (writeAll segments) = comments place segments
      ↔ ∀ s ∈ segments, s.Inert := by
  induction segments generalizing place with
  | nil => simp [writeAll, comments]
  | cons segment rest ih =>
    obtain ⟨hsegment, hrest⟩ := List.forall_mem_cons.1 hclosed
    rw [List.forall_mem_cons, writeAll_cons]
    cases segment with
    | plain text =>
      by_cases hinert : Comment.opening <:+: text
      · obtain ⟨found, more, hscan, hplace⟩ :=
          Comment.scan_append_of_infix hinert place (writeAll rest)
        -- the scan finds a comment before any that was written
        have hno :
            Comment.scan place (text ++ writeAll rest) ≠ comments (place + text.length) rest := by
          intro hsame
          rw [hscan] at hsame
          have hle := le_place_of_mem_comments (hsame ▸ List.mem_cons_self : found ∈ _)
          omega
        simp [write, comments, Inert, hno, hinert]
      · have hself : (Segment.plain text).Inert := hinert
        simp only [write, comments, hself, true_and]
        rw [Comment.scan_append hsegment hinert, ih hrest]
    | comment words =>
      have hopen :
          Comment.scan place (Comment.opening ++ (words ++ Comment.closing) ++ writeAll rest)
            = Comment.scanWords place (place + 4) []
              (words ++ (Comment.closing ++ writeAll rest)) := by
        simp [Comment.scan_opening]
      simp only [write, comments, hopen]
      by_cases hinert : Comment.closing <:+: words
      · obtain ⟨found, more, hscan, hlength⟩ := Comment.scanWords_append_of_infix hinert place
          (place + 4) [] (Comment.closing ++ writeAll rest)
        -- the comment that the scan finds has fewer words
        have hno : found ≠ ⟨place, words⟩ := by
          rintro rfl
          simp at hlength
        simp [hscan, hno, Inert, hinert]
      · rw [Comment.scanWords_append hinert]
        have hat : place + 4 + words.length + 3 = place + words.length + 7 := by omega
        simp [hat, ih hrest, Inert, hinert]

end Segment

end BlockTheme
