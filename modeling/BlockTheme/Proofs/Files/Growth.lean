import BlockTheme.Files

/-!
# Files only grow

No operation takes anything away. What was a directory stays one, and what was a file stays one,
perhaps with another content (`Files.Grows`). So a path that leads to a location leads there ever
after (`Files.Grows.locate`), and where it leads is known before anything stands there
(`Files.destination`).
-/

namespace BlockTheme

def Entry.isDirectory : Entry → Bool
  | .file _ => false
  | .directory => true

namespace Files

variable {files later : Files} {location place : Location} {path : Path} {text : String}

/-! ## Growth -/

/-- Looking up a place after the entries of a location have been taken out: this is how files are
put somewhere, old entries out and the new one in front. -/
theorem lookup_filter (entries : List (Location × Entry)) :
    (entries.filter fun (other, _) => other != location).lookup place
      = if place = location then none else entries.lookup place := by
  induction entries with
  | nil => simp
  | cons first rest ih =>
    obtain ⟨other, old⟩ := first
    rw [List.filter_cons]
    by_cases hother : other = location
    -- the first entry is the one of the location and goes
    · rw [if_neg (by simp [hother]), ih, List.lookup_cons, hother]
      by_cases hplace : place = location
      · simp [hplace]
      · simp [hplace, beq_eq_false_iff_ne.2 hplace]
    -- the first entry stays, and may be the one that is looked up
    · rw [if_pos (by simpa using hother), List.lookup_cons, List.lookup_cons, ih]
      by_cases hplace : place = location
      · simp [hplace, beq_eq_false_iff_ne.2 (Ne.symm hother)]
      · simp [hplace]

/-- Putting an entry changes what is at its location and at no other place. The root is left out,
which is a directory whatever the entries say. -/
theorem at?_put (files : Files) (h : location ≠ []) (entry : Entry) (place : Location) :
    (files.put location entry).at? place
      = if place = location then some entry else files.at? place := by
  unfold at? put
  rw [List.lookup_append, lookup_filter, List.lookup_cons, List.lookup_nil]
  by_cases hplace : place = location
  · simp [hplace, h]
  · simp [hplace, beq_eq_false_iff_ne.2 hplace]

/-- Later files have everything that was there, as what it was. -/
structure Grows (files later : Files) : Prop where
  current : later.current = files.current
  stays : ∀ {place : Location} {entry : Entry}, files.at? place = some entry →
    ∃ new, later.at? place = some new ∧ new.isDirectory = entry.isDirectory

namespace Grows

/-- Nothing has changed: files are later than themselves. -/
theorem refl (files : Files) : Grows files files := ⟨rfl, fun h => ⟨_, h, rfl⟩⟩

/-- Growing goes on from step to step, which is how it is shown for whole runs. -/
theorem trans {middle : Files} (h : Grows files middle) (h' : Grows middle later) :
    Grows files later := by
  refine ⟨h'.current.trans h.current, fun hthere => ?_⟩
  obtain ⟨between, hbetween, hkind⟩ := h.stays hthere
  obtain ⟨new, hnew, hkind'⟩ := h'.stays hbetween
  exact ⟨new, hnew, hkind'.trans hkind⟩

theorem directory (hgrows : Grows files later) (h : files.at? place = some .directory) :
    later.at? place = some .directory := by
  obtain ⟨new, hnew, hkind⟩ := hgrows.stays h
  cases new with
  | file content => cases hkind
  | directory => exact hnew

/-- An entry may be put where nothing is, or in place of one of its kind. -/
theorem put (hlocation : location ≠ []) {entry : Entry}
    (hkind : ∀ old, files.at? location = some old → entry.isDirectory = old.isDirectory) :
    Grows files (files.put location entry) := by
  refine ⟨rfl, fun {place old} hold => ?_⟩
  rw [at?_put files hlocation]
  by_cases hplace : place = location
  · rw [if_pos hplace]
    exact ⟨entry, rfl, hkind old (hplace ▸ hold)⟩
  · rw [if_neg hplace]
    exact ⟨old, hold, rfl⟩

end Grows

/-! ## Where paths lead -/

/-- Where a name leads from a directory. -/
def follow (location : Location) (name : String) : Location :=
  if name = ".." then location.dropLast else location ++ [name]

/-- Where a path leads if every directory on the way is there. -/
def destination (files : Files) (path : Path) : Location :=
  path.parts.foldl follow (if path.isAbsolute then [] else files.current)

/-- Without steps up, a path leads to the names behind one another. -/
theorem foldl_follow {names : List String} (h : ".." ∉ names) (location : Location) :
    names.foldl follow location = location ++ names := by
  induction names generalizing location with
  | nil => simp
  | cons name rest ih =>
    rw [List.mem_cons, not_or] at h
    rw [List.foldl_cons, ih h.2, follow, if_neg (Ne.symm h.1), List.append_assoc,
      List.singleton_append]

/-- By induction along the names: where a walk arrives does not depend on what is there, only
whether it arrives does. -/
theorem walk_eq_ok {names : List String} (h : files.walk location names = .ok place) :
    place = names.foldl follow location := by
  fun_induction walk files location names with
  | case1 location => exact (Except.ok.inj h).symm
  | case2 location rest ih =>
    rw [List.foldl_cons, follow, if_pos rfl]
    exact ih h
  -- the walk fails
  | case3 | case5 | case6 => cases h
  | case4 location name hname _ =>
    rw [List.foldl_cons, follow, if_neg hname]
    exact (Except.ok.inj h).symm
  | case7 location name hname _ rest _ _ ih =>
    rw [List.foldl_cons, follow, if_neg hname]
    exact ih h

/-- A path that can be followed leads to its destination. -/
theorem locate_eq_ok (h : files.locate path = .ok place) : place = files.destination path := by
  unfold locate at h
  split at h
  · cases h
  · split at h
    · next hwalk =>
      obtain rfl := Except.ok.inj h
      exact walk_eq_ok hwalk
    · cases h

/-- By induction along the names. Every name on the way was a directory and still is one, so that
the walk takes the same steps among the later files. -/
theorem Grows.walk (hgrows : Grows files later) {names : List String}
    (h : files.walk location names = .ok place) : later.walk location names = .ok place := by
  fun_induction Files.walk files location names with
  | case1 location => exact h
  | case2 location rest ih =>
    unfold Files.walk
    rw [if_pos rfl]
    exact ih h
  -- a walk that fails may succeed later, but here it arrives
  | case3 | case5 | case6 => cases h
  | case4 location name hname hlong =>
    unfold Files.walk
    rw [if_neg hname, if_neg hlong]
    exact h
  | case7 location name hname hlong rest hrest hthere ih =>
    -- a name on the way is a directory, and stays one
    obtain ⟨next, rest, rfl⟩ := List.exists_cons_of_ne_nil hrest
    unfold Files.walk
    rw [if_neg hname, if_neg hlong, hgrows.directory hthere]
    exact ih h

/-- **A path leads where it led.** Directories on the way stay directories, and nothing is taken
away. -/
theorem Grows.locate (hgrows : Grows files later) (h : files.locate path = .ok place) :
    later.locate path = .ok place := by
  unfold Files.locate at h ⊢
  rw [hgrows.current]
  split at h
  · cases h
  · next hnull =>
    rw [if_neg hnull]
    split at h
    · next hwalk =>
      rw [hgrows.walk hwalk]
      exact h
    · cases h

/-- The destination depends on the current directory alone, and this stays. -/
theorem Grows.destination (hgrows : Grows files later) (path : Path) :
    later.destination path = files.destination path := by
  rw [Files.destination, Files.destination, hgrows.current]

/-! ## What operations change -/

/-- The root is a directory, so that a place that is none is not the root. -/
theorem ne_nil_of_at?_ne (h : files.at? place ≠ some .directory) : place ≠ [] := by
  rintro rfl
  exact h rfl

/-- Of two entries that are put at one location the later one counts. -/
theorem put_put (files : Files) (location : Location) (old new : Entry) :
    (files.put location old).put location new = files.put location new := by
  simp [put]

theorem makeOne_eq_ok (h : files.makeOne path = .ok later) :
    ∃ place, files.at? place = none ∧ later = files.put place .directory := by
  unfold makeOne at h
  split at h
  · cases h
  · next place _ =>
    split at h
    case h_2 hnone _ => exact ⟨place, hnone, (Except.ok.inj h).symm⟩
    all_goals cases h

/-- Making a directory changes nothing that is there. -/
theorem at?_makeOne (h : files.makeOne path = .ok later) {entry : Entry}
    (hthere : files.at? place = some entry) : later.at? place = some entry := by
  obtain ⟨made, hnone, rfl⟩ := makeOne_eq_ok h
  have hne : place ≠ made := by
    rintro rfl
    rw [hnone] at hthere
    cases hthere
  have hmade : files.at? made ≠ some .directory := by simp [hnone]
  rw [at?_put files (ne_nil_of_at?_ne hmade), if_neg hne, hthere]

theorem Grows.makeOne (h : files.makeOne path = .ok later) : Grows files later := by
  refine ⟨?_, fun hthere => ⟨_, at?_makeOne h hthere, rfl⟩⟩
  obtain ⟨made, -, rfl⟩ := makeOne_eq_ok h
  rfl

/-- When a text can be written and what is there then: the path leads somewhere, no directory is
there, and there is one to put the file in. Everything about writing files is derived from this. -/
theorem write_eq_ok_iff :
    files.write path text = .ok later
      ↔ ∃ place, files.locate path = .ok place ∧ files.at? place ≠ some .directory
        ∧ files.at? place.dropLast = some .directory
        ∧ later = files.put place (.file (Text.Utf8.encode text.toList)) := by
  unfold write writeBytes
  split
  · next hwhy => simp [hwhy]
  · next place hplace =>
    rw [hplace]
    simp only [Except.ok.injEq, exists_eq_left']
    split
    · next hdirectory => simp [hdirectory]
    -- of the four outcomes of `writeBytes` this is the one that succeeds
    · next habove hfile =>
      rw [Except.ok.injEq, eq_comm]
      exact ⟨fun hput => ⟨hfile, habove, hput⟩, fun ⟨_, _, hput⟩ => hput⟩
    · next habove _ => simp [habove]
    · next habove _ => simp [habove]

theorem Grows.putFile (h : files.at? place ≠ some .directory) (content : List UInt8) :
    Grows files (files.put place (.file content)) := by
  refine Grows.put (ne_nil_of_at?_ne h) fun old hold => ?_
  cases old with
  | file _ => rfl
  | directory => exact absurd hold h

/-- Writes a text to a file that is open already, from its beginning on: the text stands over what
is there by now. -/
def pour (files : Files) (place : Location) (text : String) : Files :=
  match files.at? place with
  | some (.file content) =>
    let bytes := Text.Utf8.encode text.toList
    files.put place (.file (bytes ++ content.drop bytes.length))
  | _ => files

theorem pour_eq {content : List UInt8} (h : files.at? place = some (.file content)) :
    files.pour place text = files.put place (.file (Text.Utf8.encode text.toList
      ++ content.drop (Text.Utf8.encode text.toList).length)) := by
  rw [pour, h]

/-- The file that is poured into begins with the text, and then has what stood behind that place. -/
theorem at?_pour_self (text : String) {content : List UInt8}
    (h : files.at? place = some (.file content)) :
    (files.pour place text).at? place = some (.file (Text.Utf8.encode text.toList
      ++ content.drop (Text.Utf8.encode text.toList).length)) := by
  have hfile : files.at? place ≠ some .directory := by simp [h]
  rw [pour_eq h, at?_put files (ne_nil_of_at?_ne hfile), if_pos rfl]

theorem at?_pour_ne (h : place ≠ location) :
    (files.pour location text).at? place = files.at? place := by
  unfold pour
  split
  · next hcontent =>
    have hfile : files.at? location ≠ some .directory := by simp [hcontent]
    rw [at?_put files (ne_nil_of_at?_ne hfile), if_neg h]
  · rfl

theorem Grows.pour (files : Files) (place : Location) (text : String) :
    Grows files (files.pour place text) := by
  unfold Files.pour
  split
  · next hfile => exact Grows.putFile (by simp [hfile]) _
  · exact Grows.refl files

/-- Saving a text is making the directory and then writing the text. -/
theorem save_eq (files : Files) (path : Path) (text : String) :
    files.save path text =
      match files.make path.parent with
      | (files, some why) => (files, some why)
      | (files, none) =>
        match files.write path text with
        | .ok files => (files, none)
        | .error why => (files, some why) := rfl

/-- Writing a text takes two steps: the file is opened, which leaves it empty, and then the text is
written to it. -/
theorem write_eq_pour (h : files.locate path = .ok place) :
    files.write path text = (files.write path "").map fun opened => opened.pour place text := by
  by_cases hopen : ∃ opened, files.write path "" = .ok opened
  · obtain ⟨opened, hopened⟩ := hopen
    obtain ⟨_, hlocate, hplace, habove, hput⟩ := write_eq_ok_iff.1 hopened
    obtain rfl := Except.ok.inj (h.symm.trans hlocate)
    have hempty : opened.at? place = some (.file []) := by
      rw [hput, at?_put files (ne_nil_of_at?_ne hplace), if_pos rfl]
      rfl
    rw [hopened, Except.map, pour_eq hempty, List.drop_nil, List.append_nil, hput, put_put]
    exact write_eq_ok_iff.2 ⟨place, h, hplace, habove, rfl⟩
  -- opening fails for the reasons for which writing fails, and with the same failure
  · unfold write writeBytes
    simp only [h]
    split
    · rfl
    · next habove hplace =>
      exact absurd ⟨_, write_eq_ok_iff.2 ⟨place, h, hplace, habove, rfl⟩⟩ hopen
    · rfl
    · rfl

end Files

end BlockTheme
