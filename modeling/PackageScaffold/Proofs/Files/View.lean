import PackageScaffold.Files.Tree

/-!
# What stands where in a file tree

Seen from outside, a file tree says of every list of steps whether there is a directory at their
end, a file, or nothing.  This file states what the operations do to that view.

* `item?_makeDirectory`: making a directory puts directories at its place and above it, and changes
  nothing else;
* `item?_write`: writing a file changes its own place only;
* `exists_makeDirectory`, `exists_write`: both succeed at a free place in a directory, and a file can
  be replaced.
-/

namespace PackageScaffold

/-- What stands at a place: a directory, whatever it holds, or a file with its content. -/
inductive Item where
  | directory
  | file (content : Content)
  deriving DecidableEq, Repr

namespace FileTree

/-- What a tree is at its top. -/
def item : FileTree → Item
  | .directory _ => .directory
  | .file content => .file content

/-- What stands at the end of some steps. -/
def item? (tree : FileTree) (steps : List String) : Option Item :=
  (tree.get? steps).map item

/-! ## Steps into a tree -/

@[simp] theorem item?_nil (tree : FileTree) : tree.item? [] = some tree.item := by
  cases tree <;> rfl

@[simp] theorem item?_file_cons (content : Content) (step : String) (steps : List String) :
    (FileTree.file content).item? (step :: steps) = none := rfl

theorem item?_directory_cons (entries : List (String × FileTree)) (step : String)
    (steps : List String) :
    (FileTree.directory entries).item? (step :: steps) =
      (entries.lookup step).bind fun tree => tree.item? steps := by
  unfold item?
  rw [get?]
  cases entries.lookup step <;> rfl

theorem item?_eq_directory_iff {tree : FileTree} {steps : List String} :
    tree.item? steps = some .directory ↔ ∃ entries, tree.get? steps =
      some (.directory entries) := by
  unfold item?
  rcases tree.get? steps with _ | content | entries <;> simp [item]

theorem item?_eq_file_iff {tree : FileTree} {steps : List String} {content : Content} :
    tree.item? steps = some (.file content) ↔ tree.get? steps = some (.file content) := by
  unfold item?
  rcases tree.get? steps with _ | content | entries <;> simp [item]

theorem item?_eq_none_iff {tree : FileTree} {steps : List String} :
    tree.item? steps = none ↔ tree.get? steps = none := by
  simp [item?]

/-- Whatever stands somewhere stands in a directory. -/
theorem item?_of_item?_append {steps more : List String} {tree : FileTree} (hmore : more ≠ [])
    (h : tree.item? (steps ++ more) ≠ none) : tree.item? steps = some .directory := by
  induction steps generalizing tree with
  | nil =>
      cases tree with
      | directory entries => simp [item]
      | file content =>
          cases more with
          | nil => exact absurd rfl hmore
          | cons step more => simp at h
  | cons step steps ih =>
      cases tree with
      | file content => simp at h
      | directory entries =>
          rw [List.cons_append, item?_directory_cons] at h
          rw [item?_directory_cons]
          cases hlookup : entries.lookup step with
          | none => simp [hlookup] at h
          | some tree =>
              rw [hlookup] at h
              exact ih h

/-- On the way to whatever stands somewhere, the next step leads to something. -/
theorem item?_next_ne_none {tree : FileTree} {steps : List String} {step : String}
    (more : List String)
    (h : tree.item? (steps ++ step :: more) ≠ none) : tree.item? (steps ++ [step]) ≠ none := by
  cases more with
  | nil => exact h
  | cons next more =>
      rw [item?_of_item?_append (List.cons_ne_nil next more) (by simpa using h)]
      simp

/-- The way to a directory leads through directories. -/
theorem item?_of_front {tree : FileTree} {made steps : List String} (h : made <+: steps)
    (hitem : tree.item? steps = some .directory) : tree.item? made = some .directory := by
  obtain ⟨more, rfl⟩ := h
  by_cases hnil : more = []
  · rwa [hnil, List.append_nil] at hitem
  · exact item?_of_item?_append hnil (by rw [hitem]; simp)

theorem lookup_cons_eq (name other : String) (tree : FileTree)
    (rest : List (String × FileTree)) :
    ((name, tree) :: rest).lookup other = if other = name then some tree else rest.lookup
      other := by
  by_cases h : other = name
  · simp [h]
  · simp [List.lookup_cons, beq_false_of_ne h, h]

/-- A directory is empty if nothing stands in it. -/
theorem entries_eq_nil_iff {tree : FileTree} {steps : List String}
    {entries : List (String × FileTree)} (h : tree.get? steps = some (.directory entries)) :
    entries = [] ↔ ∀ step, tree.item? (steps ++ [step]) = none := by
  induction steps generalizing tree with
  | nil =>
      obtain rfl : tree = .directory entries := by simpa [get?] using h
      simp only [List.nil_append, item?_directory_cons]
      constructor
      · rintro rfl step
        rfl
      · intro hnone
        cases entries with
        | nil => rfl
        | cons entry rest =>
            -- a first entry would be found under its own name
            have hfirst := hnone entry.1
            rw [show entry = (entry.1, entry.2) from rfl, lookup_cons_eq] at hfirst
            simp at hfirst
  | cons step steps ih =>
      cases tree with
      | file content => simp [get?] at h
      | directory others =>
          rw [get?] at h
          cases hlookup : others.lookup step with
          | none => simp [hlookup] at h
          | some tree =>
              rw [hlookup] at h
              simp only [List.cons_append, item?_directory_cons, hlookup, Option.bind_some]
              exact ih h

/-! ## One entry of a directory -/

theorem lookup_setEntry (name other : String) (tree : FileTree)
    (entries : List (String × FileTree)) :
    (setEntry name tree entries).lookup other =
      if other = name then some tree else entries.lookup other := by
  induction entries with
  | nil => simp [setEntry, lookup_cons_eq]
  | cons entry rest ih =>
      obtain ⟨n, t⟩ := entry
      by_cases hn : n = name
      · subst hn
        simp only [setEntry, beq_self_eq_true, if_true, lookup_cons_eq]
        split <;> rfl
      · simp only [setEntry, beq_false_of_ne hn, Bool.false_eq_true, if_false, lookup_cons_eq, ih]
        by_cases hother : other = name
        · subst hother
          rw [if_pos rfl, if_neg (Ne.symm hn), if_pos rfl]
        · simp [hother]

/-- An entry that is set to what it is stays the same. -/
theorem setEntry_of_lookup {name : String} {tree : FileTree} {entries : List (String × FileTree)}
    (h : entries.lookup name = some tree) : setEntry name tree entries = entries := by
  induction entries with
  | nil => simp at h
  | cons entry rest ih =>
      obtain ⟨n, t⟩ := entry
      rw [lookup_cons_eq] at h
      by_cases hn : name = n
      · subst hn
        obtain rfl : t = tree := by simpa using h
        simp [setEntry]
      · rw [if_neg hn] at h
        simp [setEntry, beq_false_of_ne (Ne.symm hn), ih h]

/-- Setting an entry changes what stands at and below it. -/
theorem item?_setEntry (step : String) (below : FileTree) (entries : List (String × FileTree))
    (s : String) (steps : List String) :
    (FileTree.directory (setEntry step below entries)).item? (s :: steps) =
      if s = step then below.item? steps else (FileTree.directory entries).item? (s :: steps) := by
  simp only [item?_directory_cons, lookup_setEntry]
  split <;> rfl

/-! ## Making directories -/

theorem makeDirectory_cons (entries : List (String × FileTree)) (step : String)
    (made : List String) :
    (FileTree.directory entries).makeDirectory (step :: made) =
      match entries.lookup step with
      | some tree => (tree.makeDirectory made).map fun below =>
          .directory (setEntry step below entries)
      | none => .ok (.directory (setEntry step (chain made) entries)) := by
  rw [makeDirectory]
  cases entries.lookup step with
  | none => rfl
  | some tree => cases tree.makeDirectory made <;> rfl

theorem item?_chain (made steps : List String) :
    (chain made).item? steps = if steps <+: made then some .directory else none := by
  induction made generalizing steps with
  | nil =>
      cases steps with
      | nil => simp [chain, empty, item]
      | cons s steps => simp [chain, empty, item?_directory_cons]
  | cons step made ih =>
      cases steps with
      | nil => simp [chain, item]
      | cons s steps =>
          rw [chain, item?_directory_cons, lookup_cons_eq]
          by_cases h : s = step <;> simp [h, ih]

/-- Making a directory puts directories at its place and above it; everything else stays. -/
theorem item?_makeDirectory {tree after : FileTree} {made : List String}
    (h : tree.makeDirectory made = .ok after) (steps : List String) :
    after.item? steps = if steps <+: made then some .directory else tree.item? steps := by
  induction made generalizing tree after steps with
  | nil =>
      cases tree with
      | file content => simp [makeDirectory] at h
      | directory entries =>
          obtain rfl : FileTree.directory entries = after := by simpa [makeDirectory] using h
          cases steps <;> simp [item]
  | cons step made ih =>
      cases tree with
      | file content => simp [makeDirectory] at h
      | directory entries =>
          -- one step down is a chain of new directories, or what was there with the rest made in it
          have hafter : ∃ below, after = .directory (setEntry step below entries) ∧
              ∀ rest, below.item? rest = if rest <+: made then some .directory else
                (FileTree.directory entries).item? (step :: rest) := by
            simp only [item?_directory_cons]
            rw [makeDirectory_cons] at h
            cases hlookup : entries.lookup step with
            | none =>
                refine ⟨chain made, by simpa [hlookup] using h.symm, fun rest => ?_⟩
                exact item?_chain made rest
            | some tree =>
                simp only [hlookup] at h
                cases hbelow : tree.makeDirectory made with
                | error refusal => simp [hbelow, Except.map] at h
                | ok below =>
                    exact ⟨below, by simpa [hbelow, Except.map] using h.symm,
                      fun rest => ih hbelow rest⟩
          obtain ⟨below, rfl, hbelow⟩ := hafter
          cases steps with
          | nil => simp [item]
          | cons s steps =>
              rw [item?_setEntry]
              by_cases hs : s = step
              · subst hs
                simp [hbelow]
              · simp [hs]

/-- A directory can be made in a directory, where there is nothing. -/
theorem exists_makeDirectory {tree : FileTree} {above : List String} {name : String}
    (habove : tree.item? above = some .directory) (hfree : tree.item? (above ++ [name]) = none) :
    ∃ after, tree.makeDirectory (above ++ [name]) = .ok after := by
  induction above generalizing tree with
  | nil =>
      cases tree with
      | file content => simp [item] at habove
      | directory entries =>
          rw [List.nil_append, item?_directory_cons] at hfree
          cases hlookup : entries.lookup name with
          | some tree => simp [hlookup] at hfree
          | none => exact ⟨_, by rw [List.nil_append, makeDirectory_cons, hlookup]⟩
  | cons step above ih =>
      cases tree with
      | file content => simp at habove
      | directory entries =>
          rw [item?_directory_cons] at habove
          rw [List.cons_append, item?_directory_cons] at hfree
          cases hlookup : entries.lookup step with
          | none => simp [hlookup] at habove
          | some tree =>
              rw [hlookup] at habove hfree
              obtain ⟨after, hafter⟩ := ih habove hfree
              refine ⟨.directory (setEntry step after entries), ?_⟩
              rw [List.cons_append, makeDirectory_cons, hlookup]
              simp only [hafter]
              rfl

/-! ## Writing files -/

theorem write_cons (content : Content) (entries : List (String × FileTree)) (step : String)
    (place : List String) :
    (FileTree.directory entries).write content (step :: place) =
      match entries.lookup step with
      | some tree => (tree.write content place).map fun below =>
          .directory (setEntry step below entries)
      | none =>
        match place with
        | [] => .ok (.directory (setEntry step (.file content) entries))
        | _ :: _ => .error .missing := by
  conv =>
    lhs
    unfold write
  cases entries.lookup step with
  | none => cases place <;> rfl
  | some tree => cases tree.write content place <;> rfl

/-- Writing a file changes its own place only. -/
theorem item?_write {tree after : FileTree} {content : Content} {place : List String}
    (h : tree.write content place = .ok after) (steps : List String) :
    after.item? steps = if steps = place then some (.file content) else tree.item? steps := by
  induction place generalizing tree after steps with
  | nil =>
      cases tree with
      | directory entries => simp [write] at h
      | file old =>
          obtain rfl : FileTree.file content = after := by simpa [write] using h
          cases steps <;> simp [item]
  | cons step place ih =>
      cases tree with
      | file old => simp [write] at h
      | directory entries =>
          -- one step down is the new file, or what was there with the file written into it
          have hafter : ∃ below, after = .directory (setEntry step below entries) ∧
              ∀ rest, below.item? rest = if rest = place then some (.file content) else
                (FileTree.directory entries).item? (step :: rest) := by
            simp only [item?_directory_cons]
            rw [write_cons] at h
            cases hlookup : entries.lookup step with
            | none =>
                cases place with
                | cons _ _ => simp [hlookup] at h
                | nil =>
                    refine ⟨.file content, by simpa [hlookup] using h.symm, fun rest => ?_⟩
                    cases rest <;> simp [item]
            | some tree =>
                simp only [hlookup] at h
                cases hbelow : tree.write content place with
                | error refusal => simp [hbelow, Except.map] at h
                | ok below =>
                    exact ⟨below, by simpa [hbelow, Except.map] using h.symm,
                      fun rest => ih hbelow rest⟩
          obtain ⟨below, rfl, hbelow⟩ := hafter
          cases steps with
          | nil => simp [item]
          | cons s steps =>
              rw [item?_setEntry]
              by_cases hs : s = step
              · subst hs
                simp [hbelow]
              · simp [hs]

/-- A file can be written into a directory, where no directory is. -/
theorem exists_write {tree : FileTree} {above : List String} {name : String} (content : Content)
    (habove : tree.item? above = some .directory)
    (hfree : tree.item? (above ++ [name]) ≠ some .directory) :
    ∃ after, tree.write content (above ++ [name]) = .ok after := by
  induction above generalizing tree with
  | nil =>
      cases tree with
      | file old => simp [item] at habove
      | directory entries =>
          rw [List.nil_append, item?_directory_cons] at hfree
          rw [List.nil_append, write_cons]
          cases hlookup : entries.lookup name with
          | none => exact ⟨_, rfl⟩
          | some tree =>
              cases tree with
              | file old => exact ⟨_, rfl⟩
              | directory others => simp [hlookup, item] at hfree
  | cons step above ih =>
      cases tree with
      | file old => simp at habove
      | directory entries =>
          rw [item?_directory_cons] at habove
          rw [List.cons_append, item?_directory_cons] at hfree
          cases hlookup : entries.lookup step with
          | none => simp [hlookup] at habove
          | some tree =>
              rw [hlookup] at habove hfree
              obtain ⟨after, hafter⟩ := ih habove hfree
              refine ⟨.directory (setEntry step after entries), ?_⟩
              rw [List.cons_append, write_cons, hlookup]
              simp only [hafter]
              rfl

/-- A file is never written over a directory. -/
theorem item?_ne_directory_of_write {tree after : FileTree} {content : Content}
    {place : List String} (h : tree.write content place = .ok after) :
    tree.item? place ≠ some .directory := by
  induction place generalizing tree after with
  | nil =>
      cases tree with
      | directory entries => simp [write] at h
      | file old => simp [item]
  | cons step place ih =>
      cases tree with
      | file old => simp
      | directory entries =>
          rw [write_cons] at h
          rw [item?_directory_cons]
          cases hlookup : entries.lookup step with
          | none => simp
          | some tree =>
              simp only [hlookup] at h
              cases hbelow : tree.write content place with
              | error refusal => simp [hbelow, Except.map] at h
              | ok below => exact ih hbelow

/-- A file that is written again leaves the tree as it is. -/
theorem write_of_item? {tree : FileTree} {content : Content} {place : List String}
    (h : tree.item? place = some (.file content)) : tree.write content place = .ok tree := by
  induction place generalizing tree with
  | nil =>
      cases tree with
      | directory entries => simp [item] at h
      | file old =>
          obtain rfl : old = content := by simpa [item] using h
          rfl
  | cons step place ih =>
      cases tree with
      | file old => simp at h
      | directory entries =>
          rw [item?_directory_cons] at h
          cases hlookup : entries.lookup step with
          | none => simp [hlookup] at h
          | some below =>
              rw [hlookup] at h
              rw [write_cons, hlookup]
              simp only [ih h, Except.map, setEntry_of_lookup hlookup]

end FileTree

end PackageScaffold
