import Mathlib.Data.List.Sort
import PackageScaffold.Proofs.Path
import PackageScaffold.Review.Report

/-!
# Reading a page

A report written as a page of Markdown can be read back line by line: a heading of the second level
opens a part of the page, and the lines behind it that begin with a hyphen are the entries of that
part.

What is read is what the report holds.  As long as no text in it has a line break, the page has one
part for each category with something to say, in the order of the categories, with the findings in
front of the passed checks, and then the two lists of a repair.  The entries of all categories
together are the findings of the report sorted by category, and so are the passed checks; the
sorting keeps the order in which the report has them.

* `Part`, `readParts`: how a page is read;
* `insertionSort_eq_flatMap_filter`: going through the categories one after the other is a stable sort;
* `readParts_toMarkdown`: what is read in the page of a report.
-/

namespace PackageScaffold

/-! ## Reading -/

/-- A part of a page: its title, and the lines of its list. -/
structure Part where
  title : String
  entries : List String
  deriving DecidableEq, Repr

/-- The title in a heading of the second level. -/
def titleIn (line : String) : Option String :=
  match line.toList with
  | '#' :: '#' :: ' ' :: title => some (String.ofList title)
  | _ => none

/-- Whether a line is an entry of a list. -/
def isEntry (line : String) : Bool :=
  match line.toList with
  | '-' :: ' ' :: _ => true
  | _ => false

/-- The entries in front of the next heading. -/
def entriesAhead : List String → List String
  | [] => []
  | line :: rest =>
    if (titleIn line).isSome then []
    else if isEntry line then line :: entriesAhead rest
    else entriesAhead rest

/-- The parts of a page, read from top to bottom. -/
def readParts : List String → List Part
  | [] => []
  | line :: rest =>
    match titleIn line with
    | some title => ⟨title, entriesAhead rest⟩ :: readParts rest
    | none => readParts rest

/-- The entries of all parts about a category. -/
def categoryEntries (parts : List Part) : List String :=
  (parts.filter fun part => (Category.all.map Category.title).contains part.title).flatMap Part.entries

/-- Whether an entry is about a finding. -/
def showsFinding (line : String) : Bool :=
  "- **".toList.isPrefixOf line.toList

/-- Whether an entry is about a passed check. -/
def showsPassed (line : String) : Bool :=
  "- OK ".toList.isPrefixOf line.toList

variable {title line : String} {entries rest : List String}

theorem titleIn_heading (title : String) : titleIn ("## " ++ title) = some title := by
  have htext : ("## " ++ title).toList = '#' :: '#' :: ' ' :: title.toList := by simp
  simp [titleIn, htext]

theorem titleIn_of_isEntry (h : isEntry line = true) : titleIn line = none := by
  unfold isEntry at h
  split at h
  · rename_i htext
    simp [titleIn, htext]
  · exact Bool.noConfusion h

theorem entriesAhead_cons_of_other (htitle : titleIn line = none) (hentry : isEntry line = false) :
    entriesAhead (line :: rest) = entriesAhead rest := by
  simp [entriesAhead, htitle, hentry]

theorem entriesAhead_append (h : ∀ entry ∈ entries, isEntry entry = true) (rest : List String) :
    entriesAhead (entries ++ rest) = entries ++ entriesAhead rest := by
  induction entries with
  | nil => rfl
  | cons entry entries ih =>
      obtain ⟨hentry, hentries⟩ := List.forall_mem_cons.mp h
      rw [List.cons_append, entriesAhead, titleIn_of_isEntry hentry, hentry, ih hentries]
      rfl

theorem readParts_append (h : ∀ line ∈ entries, titleIn line = none) (rest : List String) :
    readParts (entries ++ rest) = readParts rest := by
  induction entries with
  | nil => rfl
  | cons line entries ih =>
      obtain ⟨hline, hentries⟩ := List.forall_mem_cons.mp h
      rw [List.cons_append, readParts, hline, ih hentries]

/-- A heading, an empty line and entries are a part of a page if no further entry follows. -/
theorem readParts_part (h : ∀ entry ∈ entries, isEntry entry = true)
    (hrest : entriesAhead rest = []) :
    readParts (["## " ++ title, ""] ++ entries ++ rest) = ⟨title, entries⟩ :: readParts rest := by
  have hempty : titleIn "" = none ∧ isEntry "" = false := ⟨rfl, rfl⟩
  have hahead : entriesAhead ("" :: (entries ++ rest)) = entries := by
    rw [entriesAhead_cons_of_other hempty.1 hempty.2, entriesAhead_append h, hrest, List.append_nil]
  have hbehind : readParts ("" :: (entries ++ rest)) = readParts rest := by
    rw [readParts, hempty.1]
    exact readParts_append (fun entry hentry => titleIn_of_isEntry (h entry hentry)) rest
  simp only [List.cons_append, List.nil_append]
  rw [readParts, titleIn_heading, hahead, hbehind]

theorem entriesAhead_heading (title : String) (rest : List String) :
    entriesAhead (("## " ++ title) :: rest) = [] := by
  simp [entriesAhead, titleIn_heading]

/-! ## Sorting by category -/

section Sorting

variable {α κ : Type} [DecidableEq κ] {key : α → κ} {rank : κ → ℕ}

theorem orderedInsert_append {r : α → α → Prop} [DecidableRel r] {a : α} {front back : List α}
    (hfront : ∀ b ∈ front, ¬ r a b) (hback : ∀ b ∈ back, r a b) :
    (front ++ back).orderedInsert r a = front ++ a :: back := by
  induction front with
  | nil =>
      cases back with
      | nil => rfl
      | cons b back => exact List.orderedInsert_cons_of_le _ _ (hback b List.mem_cons_self)
  | cons b front ih =>
      obtain ⟨hb, hfront⟩ := List.forall_mem_cons.mp hfront
      rw [List.cons_append, List.orderedInsert_cons, if_neg hb, ih hfront, List.cons_append]

/-- Picking out one group after the other sorts a list by groups. -/
theorem insertionSort_eq_flatMap_filter {keys : List κ} (hkeys : keys.Pairwise (rank · < rank ·))
    {l : List α} (hl : ∀ a ∈ l, key a ∈ keys) :
    l.insertionSort (fun a b => rank (key a) ≤ rank (key b)) =
      keys.flatMap fun k => l.filter (key · == k) := by
  induction l with
  | nil => simp
  | cons a l ih =>
      obtain ⟨ha, hl⟩ := List.forall_mem_cons.mp hl
      -- `a` is put in front of its own group, behind all groups of lower rank
      obtain ⟨lower, higher, rfl⟩ := List.append_of_mem ha
      obtain ⟨-, hown, hcross⟩ := List.pairwise_append.mp hkeys
      have hlower : ∀ k ∈ lower, rank k < rank (key a) := fun k hk =>
        hcross k hk _ List.mem_cons_self
      have hhigher : ∀ k ∈ higher, rank (key a) < rank k := (List.pairwise_cons.mp hown).1
      have hskip : ∀ k, rank k ≠ rank (key a) →
          (a :: l).filter (key · == k) = l.filter (key · == k) := by
        intro k hk
        refine List.filter_cons_of_neg ?_
        rw [beq_iff_eq]
        rintro rfl
        exact hk rfl
      have hrank : ∀ {ks : List κ} {b : α}, b ∈ ks.flatMap (fun k => l.filter (key · == k)) →
          key b ∈ ks := by
        intro ks b hb
        obtain ⟨k, hk, hb⟩ := List.mem_flatMap.mp hb
        obtain rfl : key b = k := beq_iff_eq.mp (List.mem_filter.mp hb).2
        exact hk
      calc (a :: l).insertionSort (fun a b => rank (key a) ≤ rank (key b))
          = ((lower ++ key a :: higher).flatMap fun k => l.filter (key · == k)).orderedInsert
              (fun a b => rank (key a) ≤ rank (key b)) a := by rw [List.insertionSort_cons, ih hl]
        _ = (lower.flatMap fun k => l.filter (key · == k)) ++
              a :: (key a :: higher).flatMap fun k => l.filter (key · == k) := by
            rw [List.flatMap_append]
            refine orderedInsert_append (fun b hb => ?_) (fun b hb => ?_)
            · exact Nat.not_le_of_lt (hlower _ (hrank hb))
            · rcases List.mem_cons.mp (hrank hb) with hsame | hmore
              · exact le_of_eq (congrArg rank hsame.symm)
              · exact (hhigher _ hmore).le
        _ = (lower ++ key a :: higher).flatMap fun k => (a :: l).filter (key · == k) := by
            rw [List.flatMap_append, List.flatMap_cons, List.flatMap_cons,
              List.filter_cons_of_pos (by simp), List.cons_append,
              List.flatMap_congr fun k hk => hskip k (hlower k hk).ne,
              List.flatMap_congr fun k hk => hskip k (hhigher k hk).ne']

end Sorting

/-- The place of a category in the order of a report. -/
def Category.rank (category : Category) : ℕ :=
  Category.all.idxOf category

theorem Category.pairwise_all : Category.all.Pairwise (rank · < rank ·) := by
  decide

theorem Category.mem_all (category : Category) : category ∈ Category.all := by
  cases category <;> decide

/-- Before one category comes another in a list sorted by category; what is of one category stays in
the order in which it was. -/
def sortedByCategory {α : Type} (key : α → Category) (l : List α) : List α :=
  l.insertionSort fun a b => (key a).rank ≤ (key b).rank

/-- Going through the categories one after the other sorts by category. -/
theorem sortedByCategory_eq {α : Type} (key : α → Category) (l : List α) :
    sortedByCategory key l = Category.all.flatMap fun category => l.filter (key · == category) :=
  insertionSort_eq_flatMap_filter Category.pairwise_all fun a _ => (key a).mem_all

/-! ## The page of a report -/

namespace Report

/-- No text of the report has a line break in it. -/
structure IsOneLined (report : Report) : Prop where
  root : '\n' ∉ report.root.toList
  name : ∀ name ∈ report.name, '\n' ∉ name.toList
  timestamp : '\n' ∉ report.timestamp.toList
  findings : ∀ finding ∈ report.findings,
    '\n' ∉ finding.message.toList ∧ '\n' ∉ finding.subject.toList
  passed : ∀ check ∈ report.passed, '\n' ∉ check.message.toList
  filesWritten : ∀ path ∈ report.filesWritten, '\n' ∉ path.toList
  fixErrors : ∀ error ∈ report.fixErrors, '\n' ∉ error.toList

/-- Whether the report has a finding or a passed check of a category. -/
def mentions (report : Report) (category : Category) : Bool :=
  report.findings.any (·.category == category) || report.passed.any (·.category == category)

/-- What a page says about a category: its findings, then its passed checks, as the
report has them. -/
def categoryPart (report : Report) (category : Category) : Part where
  title := category.title
  entries := (report.findings.filter (·.category == category)).map findingLine ++
    (report.passed.filter (·.category == category)).map passedLine

/-- The entry of a file that a repair has written. -/
def writtenLine (path : String) : String :=
  "- \x60" ++ path ++ "\x60"

/-- The entry of a repair that has failed. -/
def failedLine (error : String) : String :=
  "- " ++ error

end Report

/-- The part for a list, unless the list is empty. -/
def listPart (title : String) (entries : List String) : List Part :=
  if entries.isEmpty then [] else [⟨title, entries⟩]

namespace Report

variable {report : Report}

/-! ### Its lines -/

/-- The lines of the page. -/
def pageLines (report : Report) : List String :=
  report.summaryLines ++
    Category.all.flatMap report.categoryLines ++
    listLines "Auto-fix" (report.filesWritten.map writtenLine) ++
    listLines "Failed fixes" (report.fixErrors.map failedLine)

theorem toMarkdown_eq (report : Report) :
    report.toMarkdown = String.join (report.pageLines.map (· ++ "\n")) :=
  rfl

theorem split_join_lines {lines : List String} (h : ∀ line ∈ lines, '\n' ∉ line.toList) :
    Text.split '\n' (String.join (lines.map (· ++ "\n"))) = lines ++ [""] := by
  induction lines with
  | nil => rfl
  | cons line lines ih =>
      obtain ⟨hline, hlines⟩ := List.forall_mem_cons.mp h
      have hfeed : "\n".toList = ['\n'] := rfl
      rw [List.map_cons, String.join_cons, Text.split_append hfeed, Text.split_of_not_mem hline,
        ih hlines, List.singleton_append, List.cons_append]

theorem feed_not_mem_number (n : ℕ) : '\n' ∉ (number n).toList := by
  intro h
  rw [number, String.toList_ofList] at h
  exact absurd (Nat.isDigit_of_mem_toDigits (by decide) (by decide) h) (by decide)

theorem feed_not_mem_summaryLines (h : report.IsOneLined) :
    ∀ line ∈ report.summaryLines, '\n' ∉ line.toList := by
  have hheading : '\n' ∉ report.heading.toList := by
    unfold heading
    split
    · exact h.root
    · exact h.root
    · rename_i name _ hname
      exact h.name name hname
  have hkind : '\n' ∉ report.kindText.toList := by
    unfold kindText
    rcases report.kind with _ | _ | _ | _ <;> decide
  have hmode : '\n' ∉ report.modeText.toList := by
    unfold modeText
    split <;> decide
  have hrating : ∀ rating : Rating, '\n' ∉ rating.badge.toList ∧ '\n' ∉ rating.text.toList := by
    intro rating
    cases rating <;> decide
  obtain ⟨hbadge, hwords⟩ := hrating report.rating
  intro line hline
  simp only [summaryLines, List.mem_cons, List.not_mem_nil, or_false] at hline
  rcases hline with rfl | rfl | rfl | rfl | rfl | rfl | rfl | rfl | rfl | rfl | rfl | rfl
  all_goals
    simp [hheading, h.root, hkind, hmode, h.timestamp, hbadge, hwords, feed_not_mem_number]

theorem feed_not_mem_findingLine {finding : Finding} (hmessage : '\n' ∉ finding.message.toList)
    (hsubject : '\n' ∉ finding.subject.toList) : '\n' ∉ (findingLine finding).toList := by
  have hlabel : '\n' ∉ finding.severity.label.toList := by cases finding.severity <;> decide
  have hend : '\n' ∉ (if finding.isFixable then " _auto-fixable_" else "").toList := by
    cases finding.isFixable <;> decide
  simp [findingLine, hlabel, hmessage, hsubject, hend]

theorem entries_eq_nil_iff (report : Report) (category : Category) :
    (report.categoryPart category).entries = [] ↔ report.mentions category = false := by
  simp [categoryPart, mentions, List.filter_eq_nil_iff]

theorem categoryLines_eq (report : Report) (category : Category) :
    report.categoryLines category =
      if report.mentions category then
        ["## " ++ category.title, ""] ++ (report.categoryPart category).entries ++ [""]
      else [] := by
  have hlines : report.categoryLines category =
      if (report.categoryPart category).entries.isEmpty then []
      else ["## " ++ category.title, ""] ++ (report.categoryPart category).entries ++ [""] := rfl
  have hempty := report.entries_eq_nil_iff category
  rw [hlines]
  cases hmentions : report.mentions category with
  | false => rw [hempty.mpr hmentions]; rfl
  | true =>
      rw [if_neg, if_pos rfl]
      rw [List.isEmpty_iff, hempty, hmentions]
      exact Bool.noConfusion

theorem isEntry_of_mem_entries {category : Category} :
    ∀ entry ∈ (report.categoryPart category).entries, isEntry entry = true := by
  intro entry hentry
  rcases List.mem_append.mp hentry with hentry | hentry
  · obtain ⟨finding, -, rfl⟩ := List.mem_map.mp hentry
    simp [findingLine, isEntry]
  · obtain ⟨check, -, rfl⟩ := List.mem_map.mp hentry
    simp [passedLine, isEntry]

theorem feed_not_mem_entries (h : report.IsOneLined) {category : Category} :
    ∀ entry ∈ (report.categoryPart category).entries, '\n' ∉ entry.toList := by
  intro entry hentry
  rcases List.mem_append.mp hentry with hentry | hentry
  · obtain ⟨finding, hfinding, rfl⟩ := List.mem_map.mp hentry
    obtain ⟨hmessage, hsubject⟩ := h.findings finding (List.mem_filter.mp hfinding).1
    exact feed_not_mem_findingLine hmessage hsubject
  · obtain ⟨check, hcheck, rfl⟩ := List.mem_map.mp hentry
    simp [passedLine, h.passed check (List.mem_filter.mp hcheck).1]

theorem feed_not_mem_listLines {title : String} {entries : List String}
    (htitle : '\n' ∉ title.toList)
    (h : ∀ entry ∈ entries, '\n' ∉ entry.toList) :
    ∀ line ∈ listLines title entries, '\n' ∉ line.toList := by
  intro line hline
  unfold listLines at hline
  split at hline
  · exact absurd hline List.not_mem_nil
  · rcases List.mem_append.mp hline with hline | hline
    · simp only [List.mem_cons, List.not_mem_nil, or_false] at hline
      rcases hline with rfl | rfl
      · simp [htitle]
      · exact List.not_mem_nil
    · exact h line hline

/-- The page has no other line breaks than those between its lines. -/
theorem feed_not_mem_pageLines (h : report.IsOneLined) :
    ∀ line ∈ report.pageLines, '\n' ∉ line.toList := by
  have htitle : ∀ category : Category, '\n' ∉ category.title.toList := by
    intro category
    cases category <;> decide
  have hcategory : ∀ category, ∀ line ∈ report.categoryLines category, '\n' ∉ line.toList := by
    intro category line hline
    rw [categoryLines_eq] at hline
    split at hline
    · simp only [List.mem_append, List.mem_cons, List.not_mem_nil, or_false] at hline
      rcases hline with ((rfl | rfl) | hentry) | rfl
      · simp [htitle]
      · exact List.not_mem_nil
      · exact feed_not_mem_entries h line hentry
      · exact List.not_mem_nil
    · exact absurd hline List.not_mem_nil
  have hwritten : ∀ entry ∈ report.filesWritten.map writtenLine, '\n' ∉ entry.toList := by
    intro entry hentry
    obtain ⟨path, hpath, rfl⟩ := List.mem_map.mp hentry
    simp [writtenLine, h.filesWritten path hpath]
  have hfailed : ∀ entry ∈ report.fixErrors.map failedLine, '\n' ∉ entry.toList := by
    intro entry hentry
    obtain ⟨error, herror, rfl⟩ := List.mem_map.mp hentry
    simp [failedLine, h.fixErrors error herror]
  intro line hline
  simp only [pageLines, List.mem_append, List.mem_flatMap] at hline
  rcases hline with ((hline | ⟨category, -, hline⟩) | hline) | hline
  · exact feed_not_mem_summaryLines h line hline
  · exact hcategory category line hline
  · exact feed_not_mem_listLines (by decide) hwritten line hline
  · exact feed_not_mem_listLines (by decide) hfailed line hline

/-! ### Its parts -/

theorem titleIn_summaryLines (report : Report) :
    ∀ line ∈ report.summaryLines, titleIn line = none := by
  intro line hline
  simp only [summaryLines, List.mem_cons, List.not_mem_nil, or_false] at hline
  rcases hline with rfl | rfl | rfl | rfl | rfl | rfl | rfl | rfl | rfl | rfl | rfl | rfl
  all_goals simp [titleIn]

theorem entriesAhead_listLines (title : String) (entries rest : List String)
    (hrest : entriesAhead rest = []) : entriesAhead (listLines title entries ++ rest) = [] := by
  unfold listLines
  split
  · exact hrest
  · exact entriesAhead_heading title _

theorem readParts_listLines {title : String} {entries rest : List String}
    (h : ∀ entry ∈ entries, isEntry entry = true) (hrest : entriesAhead rest = []) :
    readParts (listLines title entries ++ rest) = listPart title entries ++ readParts rest := by
  unfold listLines listPart
  split
  · rfl
  · rw [readParts_part h hrest]
    rfl

theorem entriesAhead_categories (categories : List Category) {rest : List String}
    (hrest : entriesAhead rest = []) :
    entriesAhead (categories.flatMap report.categoryLines ++ rest) = [] := by
  induction categories with
  | nil => exact hrest
  | cons category categories ih =>
      rw [List.flatMap_cons, categoryLines_eq]
      split
      · exact entriesAhead_heading category.title _
      · exact ih

/-- Category by category, the lines are read as the parts that they were written from. -/
theorem readParts_categories (categories : List Category) {rest : List String}
    (hrest : entriesAhead rest = []) :
    readParts (categories.flatMap report.categoryLines ++ rest) =
      (categories.filter report.mentions).map report.categoryPart ++ readParts rest := by
  induction categories with
  | nil => rfl
  | cons category categories ih =>
      have hahead : entriesAhead (categories.flatMap report.categoryLines ++ rest) = [] :=
        entriesAhead_categories categories hrest
      rw [List.flatMap_cons, List.filter_cons, categoryLines_eq]
      cases report.mentions category with
      | false => exact ih
      | true =>
          have hempty : titleIn "" = none ∧ isEntry "" = false := ⟨rfl, rfl⟩
          have hblank : entriesAhead ("" :: (categories.flatMap report.categoryLines ++ rest)) =
              [] := by
            rw [entriesAhead_cons_of_other hempty.1 hempty.2, hahead]
          have hskip : readParts ("" :: (categories.flatMap report.categoryLines ++ rest)) =
              readParts (categories.flatMap report.categoryLines ++ rest) := by
            rw [readParts, hempty.1]
          rw [if_pos rfl, if_pos rfl, List.map_cons, List.append_assoc, List.append_assoc,
            List.singleton_append, readParts_part isEntry_of_mem_entries hblank, hskip, ih]
          rfl

theorem readParts_pageLines (report : Report) :
    readParts (report.pageLines ++ [""]) =
      (Category.all.filter report.mentions).map report.categoryPart ++
        listPart "Auto-fix" (report.filesWritten.map writtenLine) ++
        listPart "Failed fixes" (report.fixErrors.map failedLine) := by
  have hwritten : ∀ entry ∈ report.filesWritten.map writtenLine, isEntry entry = true := by
    intro entry hentry
    obtain ⟨path, -, rfl⟩ := List.mem_map.mp hentry
    simp [writtenLine, isEntry]
  have hfailed : ∀ entry ∈ report.fixErrors.map failedLine, isEntry entry = true := by
    intro entry hentry
    obtain ⟨error, -, rfl⟩ := List.mem_map.mp hentry
    simp [failedLine, isEntry]
  have hend : entriesAhead [""] = [] ∧ readParts [""] = [] := ⟨rfl, rfl⟩
  have hlast := entriesAhead_listLines "Failed fixes" (report.fixErrors.map failedLine) [""] hend.1
  have hlists := entriesAhead_listLines "Auto-fix" (report.filesWritten.map writtenLine) _ hlast
  rw [pageLines, List.append_assoc, List.append_assoc, List.append_assoc,
    readParts_append report.titleIn_summaryLines, readParts_categories _ hlists,
    readParts_listLines hwritten hlast, readParts_listLines hfailed hend.1, hend.2, List.append_nil,
    List.append_assoc]

/-! ### Findings and passed checks -/

theorem categoryEntries_append (first second : List Part) :
    categoryEntries (first ++ second) = categoryEntries first ++ categoryEntries second := by
  simp [categoryEntries]

theorem categoryEntries_listPart {title : String} (entries : List String)
    (h : title ∉ Category.all.map Category.title) :
    categoryEntries (listPart title entries) = [] := by
  unfold listPart
  split
  · rfl
  · simp only [categoryEntries, List.filter_cons, List.filter_nil]
    rw [if_neg (by rwa [List.contains_iff_mem])]
    rfl

/-- Categories without a part would not add an entry. -/
theorem categoryEntries_parts (report : Report) (categories : List Category) :
    categoryEntries ((categories.filter report.mentions).map report.categoryPart) =
      categories.flatMap fun category => (report.categoryPart category).entries := by
  have htitle : ∀ category, (Category.all.map Category.title).contains
      (report.categoryPart category).title = true := by
    intro category
    rw [List.contains_iff_mem]
    exact List.mem_map.mpr ⟨category, category.mem_all, rfl⟩
  induction categories with
  | nil => rfl
  | cons category categories ih =>
      rw [List.filter_cons, List.flatMap_cons, ← ih]
      cases hmentions : report.mentions category with
      | false => rw [(report.entries_eq_nil_iff category).mpr hmentions]; rfl
      | true =>
          rw [if_pos rfl, List.map_cons, ← List.singleton_append, categoryEntries_append]
          congr 1
          rw [categoryEntries, List.filter_singleton, htitle, cond_true, List.flatMap_singleton]

theorem shows_findingLine (finding : Finding) :
    showsFinding (findingLine finding) = true ∧ showsPassed (findingLine finding) = false := by
  constructor <;> simp [showsFinding, showsPassed, findingLine, List.isPrefixOf]

theorem shows_passedLine (check : PassedCheck) :
    showsFinding (passedLine check) = false ∧ showsPassed (passedLine check) = true := by
  constructor <;> simp [showsFinding, showsPassed, passedLine, List.isPrefixOf]

theorem filter_entries (report : Report) (category : Category) :
    (report.categoryPart category).entries.filter showsFinding =
        (report.findings.filter (·.category == category)).map findingLine ∧
      (report.categoryPart category).entries.filter showsPassed =
        (report.passed.filter (·.category == category)).map passedLine := by
  constructor <;>
    simp [categoryPart, List.filter_map, Function.comp_def, shows_findingLine, shows_passedLine]

/-- Every title is that of a category or of a list, in the order in which there could be parts. -/
theorem titles_sublist (report : Report) (written failed : List String) :
    (((Category.all.filter report.mentions).map report.categoryPart ++
      listPart "Auto-fix" written ++
        listPart "Failed fixes" failed).map Part.title).Sublist
      (Category.all.map Category.title ++ ["Auto-fix"] ++ ["Failed fixes"]) := by
  have hlist : ∀ title entries, ((listPart title entries).map Part.title).Sublist [title] := by
    intro title entries
    unfold listPart
    split <;> simp
  have hcategories : (((Category.all.filter report.mentions).map report.categoryPart).map
      Part.title).Sublist (Category.all.map Category.title) := by
    rw [List.map_map]
    exact List.filter_sublist.map _
  rw [List.map_append, List.map_append]
  exact (hcategories.append (hlist _ _)).append (hlist _ _)

/-- What the page of a report says, read from top to bottom: a part for each category with a finding
or a passed check, in the order of the categories, each with its findings and then its passed checks
as the report has them; and the two lists of a repair, where they are not empty.  No title comes
twice, and the entries of all categories are those of the report, sorted by category. -/
theorem readParts_toMarkdown (h : report.IsOneLined) :
    let parts := readParts (Text.split '\n' report.toMarkdown)
    parts = (Category.all.filter report.mentions).map report.categoryPart ++
        listPart "Auto-fix" (report.filesWritten.map writtenLine) ++
        listPart "Failed fixes" (report.fixErrors.map failedLine) ∧
      (parts.map Part.title).Nodup ∧
      (categoryEntries parts).filter showsFinding =
        (sortedByCategory Finding.category report.findings).map findingLine ∧
      ((categoryEntries parts).filter showsFinding).Perm (report.findings.map findingLine) ∧
      (categoryEntries parts).filter showsPassed =
        (sortedByCategory PassedCheck.category report.passed).map passedLine ∧
      ((categoryEntries parts).filter showsPassed).Perm (report.passed.map passedLine) := by
  intro parts
  have hparts : parts = (Category.all.filter report.mentions).map report.categoryPart ++
      listPart "Auto-fix" (report.filesWritten.map writtenLine) ++
      listPart "Failed fixes" (report.fixErrors.map failedLine) := by
    rw [← readParts_pageLines, ← split_join_lines (feed_not_mem_pageLines h), ← toMarkdown_eq]
  have hentries : categoryEntries parts =
      Category.all.flatMap fun category => (report.categoryPart category).entries := by
    rw [hparts, categoryEntries_append, categoryEntries_append, categoryEntries_parts,
      categoryEntries_listPart _ (by decide), categoryEntries_listPart _ (by decide),
      List.append_nil, List.append_nil]
  have hfindings : (categoryEntries parts).filter showsFinding =
      (sortedByCategory Finding.category report.findings).map findingLine := by
    rw [hentries, sortedByCategory_eq, List.filter_flatMap, List.map_flatMap]
    exact List.flatMap_congr fun category _ => (report.filter_entries category).1
  have hpassed : (categoryEntries parts).filter showsPassed =
      (sortedByCategory PassedCheck.category report.passed).map passedLine := by
    rw [hentries, sortedByCategory_eq, List.filter_flatMap, List.map_flatMap]
    exact List.flatMap_congr fun category _ => (report.filter_entries category).2
  refine ⟨hparts, ?_, hfindings, ?_, hpassed, ?_⟩
  · rw [hparts]
    exact (report.titles_sublist _ _).nodup (by decide)
  · rw [hfindings]
    exact (List.perm_insertionSort _ _).map _
  · rw [hpassed]
    exact (List.perm_insertionSort _ _).map _

/-- The findings come out of order, and one category has passed checks only. -/
theorem readParts_toMarkdown_mixed :
    let report : Report := {
      root := "shop", name := some "shop", timestamp := "2024-03-05T12:30:45",
      findings := [⟨.lint, .warning, "Missing analysis_options.yaml", "analysis_options.yaml", true⟩,
        ⟨.requiredFiles, .error, "Missing required file: LICENSE", "LICENSE", true⟩,
        ⟨.lint, .warning, "## Lint", "analysis_options.yaml", false⟩],
      passed := [⟨.layout, "lib/ directory present"⟩, ⟨.requiredFiles, "README.md present"⟩],
      fixErrors := ["LICENSE: shop: Not a directory"] }
    report.IsOneLined ∧
      (readParts (Text.split '\n' report.toMarkdown)).map Part.title =
        ["Required files", "Directory structure", "Lint configuration", "Failed fixes"] ∧
      ((categoryEntries (readParts (Text.split '\n' report.toMarkdown))).filter showsFinding) =
        ["- **ERROR** Missing required file: LICENSE (\x60LICENSE\x60) _auto-fixable_",
         "- **WARNING** Missing analysis_options.yaml (\x60analysis_options.yaml\x60) _auto-fixable_",
         "- **WARNING** ## Lint (\x60analysis_options.yaml\x60)"] := by
  intro report
  have hlined : report.IsOneLined :=
    ⟨by decide, by decide, by decide, by decide, by decide, by decide, by decide⟩
  obtain ⟨hparts, -, hfindings, -⟩ := readParts_toMarkdown hlined
  refine ⟨hlined, ?_, ?_⟩
  · rw [hparts]
    decide
  · rw [hfindings]
    decide

end Report

end PackageScaffold
