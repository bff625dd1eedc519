import BlockTheme.Command

/-!
# Arguments of commands

Before the arguments are read they are marked, and only an argument that could stand for several
switches cannot be (`Grammar.exists_marks`). From the name of a command on all arguments are left to
the grammar of that command (`read_command`).
-/

namespace BlockTheme.Command

variable {g : Grammar} {args rest : List String}

namespace Grammar

/-- An argument is marked unless there are several switches that it could stand for. In every other
case it gets a mark, as a switch or as an operand. -/
theorem exists_mark {arg : String} (h : (g.candidates arg.toList).length ≤ 1) :
    ∃ mark, g.mark arg = .ok mark := by
  unfold mark
  dsimp only
  split
  · exact ⟨_, rfl⟩
  · split
    · exact ⟨_, rfl⟩
    · split
      · exact ⟨_, rfl⟩
      · split
        · exact ⟨_, rfl⟩
        · split <;> exact ⟨_, rfl⟩
        · next several hone hnone =>
          -- of at most one candidate there is one or none
          match hcandidates : g.candidates arg.toList with
          | [] => exact absurd hcandidates hnone
          | [(name, found, joined)] => exact absurd hcandidates (hone name found joined)
          | _ :: _ :: _ =>
            rw [hcandidates] at h
            simp at h

/-- Arguments are marked if each of them is, and they stay the same arguments: marking a list stops
at the first one that cannot be marked. -/
theorem exists_marks (h : ∀ arg ∈ args, (g.candidates arg.toList).length ≤ 1) :
    ∃ marks, g.marks args = .ok marks ∧ marks.map Prod.fst = args := by
  induction args with
  | nil => exact ⟨[], rfl, rfl⟩
  | cons arg rest ih =>
    obtain ⟨harg, hrest⟩ := List.forall_mem_cons.1 h
    unfold marks
    by_cases hhyphens : arg = "--"
    · rw [if_pos hhyphens]
      refine ⟨_, rfl, ?_⟩
      rw [List.map_cons, List.map_map]
      exact congrArg (arg :: ·) (List.map_id rest)
    · rw [if_neg hhyphens]
      obtain ⟨mark, hmark⟩ := exists_mark harg
      obtain ⟨marks, hmarks, hsame⟩ := ih hrest
      rw [hmark, hmarks]
      exact ⟨_, rfl, by rw [List.map_cons, hsame]⟩

end Grammar

/-- The name of a command is no switch, so it gets the mark of an operand. It begins with a letter,
and switches with a dash. -/
theorem marks_command (name : Name) {marks : List (String × Mark)}
    (h : mainGrammar.marks (name.text :: rest) = .ok marks) :
    ∃ others, marks = (name.text, .operand) :: others := by
  have hmark : name.text ≠ "--" ∧ mainGrammar.mark name.text = .ok .operand := by
    cases name <;> exact ⟨by decide, rfl⟩
  unfold Grammar.marks at h
  rw [if_neg hmark.1, hmark.2] at h
  cases hothers : mainGrammar.marks rest with
  | error stop =>
    rw [hothers] at h
    cases h
  | ok others =>
    rw [hothers] at h
    cases h
    exact ⟨others, rfl⟩

/-- The first argument that is no switch is taken with all that follow it: the main grammar has one
operand, for the command and the arguments of the command. -/
theorem parse_command (name : Name)
    (hclear : ∀ arg ∈ name.text :: rest, (mainGrammar.candidates arg.toList).length ≤ 1) :
    mainGrammar.parse (name.text :: rest) = .ok { operand := some (name.text :: rest) } := by
  obtain ⟨marks, hmarks, hsame⟩ := Grammar.exists_marks hclear
  obtain ⟨others, rfl⟩ := marks_command name hmarks
  -- the operand comes first and leaves nothing to be read
  have hread : ∀ fuel, mainGrammar.read (fuel + 2) {} ((name.text, .operand) :: others)
      = .ok { operand := some (((name.text, Mark.operand) :: others).map Prod.fst) } := fun _ => rfl
  unfold Grammar.parse
  rw [hmarks]
  show (mainGrammar.read (others.length + 2) {} ((name.text, .operand) :: others) >>= _) = _
  rw [hread, hsame]
  rfl

/-- **From the name of a command on all arguments are its own**, unless one of them could stand for
several of the switches that come before the name. -/
theorem read_command (name : Name)
    (hclear : ∀ arg ∈ name.text :: rest, (mainGrammar.candidates arg.toList).length ≤ 1) :
    read (name.text :: rest) = match name.grammar.parse rest with
      | .error stop => .error (stop.exit name.usage name.help (program ++ " " ++ name.text))
      | .ok inner =>
        if inner.extras.isEmpty then .ok ⟨none, some (Task.ofParsed name inner)⟩
        else .error (faultExit mainUsage program
          ("unrecognized arguments: " ++ " ".intercalate inner.extras)) := by
  have hname : Name.ofText? name.text = some name := by cases name <;> rfl
  unfold read
  rw [parse_command name hclear]
  dsimp only [bind, Except.bind]
  rw [hname]
  dsimp only
  cases name.grammar.parse rest with
  | error stop => rfl
  | ok inner => rfl

end BlockTheme.Command
