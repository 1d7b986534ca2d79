import Mathlib.Data.List.Forall2
import Planbox.Proofs.PlanText
import Planbox.Proofs.Results

/-!
# The lines of a report

A report has one line for each step, which starts with a word for how the step ended; a brief has
one line for each failure. Both are read by people and by generators, and a plan is not to be
trusted with them: it chooses paths, commands, patterns and what programs write.

Output is shown in lines that are indented, so it adds no such line. The texts of errors and the
names of files are put in as they are. `Report.statusRows_text` says what becomes of that, for every
report whose labels have no line feed: the lines of the steps are all there and in order, but
between them stand those lines of an error, or of a name, that start like the line of a step.
-/

namespace Planbox

namespace Text

/-! ## Rows -/

/-- What stands between the line feeds of a text. -/
def rows (cs : List Char) : List (List Char) := splitChars '\n' cs []

/-- What stands in front of the first line feed. -/
def firstRow (cs : List Char) : List Char := cs.takeWhile (· ≠ '\n')

def laterRows (cs : List Char) : List (List Char) := (rows cs).tail

theorem splitChars_append_of_not_mem {sep : Char} {a : List Char} (h : sep ∉ a)
    (b acc : List Char) : splitChars sep (a ++ b) acc = splitChars sep b (a.reverse ++ acc) := by
  induction a generalizing acc with
  | nil => rfl
  | cons c a ih =>
    obtain ⟨hc, ha⟩ : sep ≠ c ∧ sep ∉ a := by simpa using h
    rw [List.cons_append, splitChars, if_neg (Ne.symm hc), ih ha]
    simp

theorem splitChars_eq_cons {sep : Char} (cs acc : List Char) :
    splitChars sep cs acc
      = (acc.reverse ++ cs.takeWhile (· ≠ sep)) :: (splitChars sep cs []).tail := by
  induction cs generalizing acc with
  | nil => simp [splitChars]
  | cons c cs ih =>
    by_cases hc : c = sep
    · simp [splitChars, hc]
    · rw [splitChars, if_neg hc, ih, splitChars, if_neg hc, ih [c]]
      simp [hc]

theorem rows_append (a b : List Char) : rows (a ++ '\n' :: b) = rows a ++ rows b :=
  splitChars_append a b []

theorem rows_append_of_not_mem {a : List Char} (h : '\n' ∉ a) (b : List Char) :
    rows (a ++ b) = (a ++ firstRow b) :: laterRows b := by
  rw [rows, splitChars_append_of_not_mem h, List.append_nil, splitChars_eq_cons,
    List.reverse_reverse, firstRow, laterRows, rows]

theorem rows_of_not_mem {cs : List Char} (h : '\n' ∉ cs) : rows cs = [cs] := by
  have hrows := rows_append_of_not_mem h []
  rwa [List.append_nil, firstRow, List.takeWhile_nil, List.append_nil] at hrows

theorem laterRows_eq_nil_iff {cs : List Char} : laterRows cs = [] ↔ '\n' ∉ cs := by
  constructor
  · intro h hmem
    obtain ⟨a, b, rfl⟩ := List.append_of_mem hmem
    rw [laterRows, rows_append, rows, rows, splitChars_eq_cons a, splitChars_eq_cons b] at h
    simp at h
  · intro h
    rw [laterRows, rows_of_not_mem h, List.tail_cons]

theorem rows_intercalate {texts : List (List Char)} (h : texts ≠ []) :
    rows (['\n'].intercalate texts) = texts.flatMap rows := by
  induction texts with
  | nil => exact absurd rfl h
  | cons a rest ih =>
    by_cases hrest : rest = []
    · simp [hrest, List.intercalate]
    · obtain ⟨b, more, rfl⟩ := List.exists_cons_of_ne_nil hrest
      have hjoined : ['\n'].intercalate (a :: b :: more)
          = a ++ '\n' :: ['\n'].intercalate (b :: more) := by
        simp [List.intercalate]
      rw [hjoined, rows_append, ih hrest]
      rfl

/-! ## Numbers in a text -/

theorem toList_toString (n : Nat) : (toString n).toList = Nat.toDigits 10 n :=
  Nat.toList_repr

theorem not_mem_toString {c : Char} (hc : c.isDigit = false) (n : Nat) :
    c ∉ (toString n).toList := by
  intro h
  rw [toList_toString] at h
  have hdigit := Nat.isDigit_of_mem_toDigits (by omega) (by omega) h
  simp [hdigit] at hc

end Text

open Text

namespace Report

/-! ## Rows that are the line of a step -/

/-- Whether a row starts like the line of a step. -/
def isStatusRow (row : List Char) : Bool :=
  "ok     ".toList.isPrefixOf row || "FAILED ".toList.isPrefixOf row

/-- The rows of a text that start like the line of a step. -/
def statusRows (cs : List Char) : List (List Char) := (rows cs).filter isStatusRow

/-- The rows that a text adds where it is put into a line: those behind its first one that start
like the line of a step. -/
def addedRows (cs : List Char) : List (List Char) := (laterRows cs).filter isStatusRow

theorem isStatusRow_cons {c : Char} (hok : c ≠ 'o') (hfailed : c ≠ 'F') (row : List Char) :
    isStatusRow (c :: row) = false := by
  simp [isStatusRow, List.isPrefixOf, Ne.symm hok, Ne.symm hfailed]

theorem addedRows_of_not_mem {cs : List Char} (h : '\n' ∉ cs) : addedRows cs = [] := by
  rw [addedRows, laterRows_eq_nil_iff.mpr h, List.filter_nil]

@[simp] theorem statusRows_nil : statusRows [] = [] := rfl

theorem statusRows_append_feed (a b : List Char) :
    statusRows (a ++ '\n' :: b) = statusRows a ++ statusRows b := by
  rw [statusRows, rows_append, List.filter_append]
  rfl

theorem statusRows_line {lead : List Char} (hlead : '\n' ∉ lead) (rest : List Char) :
    statusRows (lead ++ rest)
      = [lead ++ firstRow rest].filter isStatusRow ++ addedRows rest := by
  rw [statusRows, rows_append_of_not_mem hlead, addedRows, ← List.filter_append,
    List.singleton_append]

/-! ### Texts that end with their line -/

/-- A text that is made of whole lines. -/
def EndsRow (cs : List Char) : Prop := cs = [] ∨ ∃ front, cs = front ++ ['\n']

theorem endsRow_feed (cs : List Char) : EndsRow (cs ++ ['\n']) := .inr ⟨cs, rfl⟩

theorem EndsRow.append {a b : List Char} (ha : EndsRow a) (hb : EndsRow b) : EndsRow (a ++ b) := by
  rcases hb with rfl | ⟨front, rfl⟩
  · rwa [List.append_nil]
  · exact .inr ⟨a ++ front, by simp⟩

theorem EndsRow.flatMap {α : Type} {xs : List α} {f : α → List Char}
    (h : ∀ x ∈ xs, EndsRow (f x)) : EndsRow (xs.flatMap f) := by
  induction xs with
  | nil => exact .inl rfl
  | cons x xs ih =>
    rw [List.flatMap_cons]
    exact (h x List.mem_cons_self).append (ih fun y hy ↦ h y (List.mem_cons_of_mem _ hy))

theorem EndsRow.statusRows_append {a : List Char} (h : EndsRow a) (b : List Char) :
    statusRows (a ++ b) = statusRows a ++ statusRows b := by
  rcases h with rfl | ⟨front, rfl⟩
  · rfl
  · rw [List.append_assoc, List.singleton_append, statusRows_append_feed, statusRows_append_feed,
      statusRows_nil, List.append_nil]

theorem statusRows_flatMap {α : Type} {xs : List α} {f : α → List Char}
    (h : ∀ x ∈ xs, EndsRow (f x)) :
    statusRows (xs.flatMap f) = xs.flatMap fun x ↦ statusRows (f x) := by
  induction xs with
  | nil => rfl
  | cons x xs ih =>
    rw [List.flatMap_cons, (h x List.mem_cons_self).statusRows_append,
      ih fun y hy ↦ h y (List.mem_cons_of_mem _ hy), List.flatMap_cons]

end Report

open Report

/-! ## The line of a result -/

theorem toList_indented (output : List String) :
    (indented output).toList
      = output.flatMap fun row ↦ "       ".toList ++ row.toList ++ ['\n'] := by
  rw [indented, String.toList_join, List.flatMap_map]
  simp

/-- Output adds no row, whatever it holds. -/
theorem Output.statusRows_text (o : Output) : statusRows o.text.toList = [] := by
  rw [text, toList_indented, statusRows_flatMap fun row _ ↦ endsRow_feed _,
    List.flatMap_eq_nil_iff]
  intro row hrow
  have hfree : '\n' ∉ "       ".toList ++ row.toList := by
    simpa using Output.not_mem_of_mem_rows hrow
  rw [statusRows_append_feed, statusRows_nil, List.append_nil, statusRows, rows_of_not_mem hfree,
    List.filter_cons_of_neg, List.filter_nil]
  exact Bool.eq_false_iff.mp (isStatusRow_cons (by decide) (by decide) _)

namespace StepResult

def rowStart (s : StepResult) : String :=
  match s.error with
  | none => "ok     " ++ s.label
  | some _ => "FAILED " ++ s.label ++ ": "

/-- The text of what went wrong, which is empty if nothing did. -/
def errorText (s : StepResult) : List Char := (s.error.getD "").toList

/-- The line of a result: the text of what went wrong up to its first line feed. -/
def ownRow (s : StepResult) : List Char := s.rowStart.toList ++ firstRow s.errorText

theorem rowStart_prefix (s : StepResult) : s.rowStart.toList <+: s.ownRow := List.prefix_append _ _

theorem toList_text (s : StepResult) :
    s.text.toList = (s.rowStart.toList ++ s.errorText ++ ['\n']) ++ s.output.text.toList := by
  rw [text, rowStart, errorText]
  cases s.error <;> simp

theorem endsRow_text (s : StepResult) : EndsRow s.text.toList := by
  rw [toList_text, Output.text, toList_indented]
  exact (endsRow_feed _).append (EndsRow.flatMap fun row _ ↦ endsRow_feed _)

theorem isStatusRow_ownRow (s : StepResult) : isStatusRow s.ownRow = true := by
  rw [ownRow, rowStart, isStatusRow]
  cases s.error <;> simp

theorem not_mem_rowStart {s : StepResult} (h : '\n' ∉ s.label.toList) :
    '\n' ∉ s.rowStart.toList := by
  rw [rowStart]
  cases s.error <;> simpa using h

/-- The row of a step, and the rows that the text of its error adds. -/
theorem statusRows_text {s : StepResult} (h : '\n' ∉ s.label.toList) :
    statusRows s.text.toList = s.ownRow :: addedRows s.errorText := by
  rw [toList_text, (endsRow_feed _).statusRows_append, Output.statusRows_text, List.append_nil,
    statusRows_append_feed, statusRows_nil, List.append_nil,
    statusRows_line (not_mem_rowStart h), ← ownRow,
    List.filter_cons_of_pos s.isStatusRow_ownRow, List.filter_nil, List.singleton_append]

end StepResult

/-! ## The report as a whole -/

namespace Report

theorem statusRows_counts (ok failed : Nat) :
    statusRows ("\n" ++ toString ok ++ " ok, " ++ toString failed ++ " failed\n").toList = [] := by
  obtain ⟨c, ds, hcons⟩ : ∃ c ds, (toString ok).toList = c :: ds := by
    rw [toList_toString]
    exact List.exists_cons_of_ne_nil Nat.toDigits_ne_nil
  have hc : ∀ d : Char, d.isDigit = false → c ≠ d := by
    rintro d hd rfl
    exact not_mem_toString hd ok (hcons ▸ List.mem_cons_self)
  have hfree : '\n' ∉ (toString ok).toList ++ " ok, ".toList ++ (toString failed).toList
      ++ " failed".toList := by
    simp only [List.mem_append, not_or]
    exact ⟨⟨⟨not_mem_toString rfl ok, by decide⟩, not_mem_toString rfl failed⟩, by decide⟩
  have htext : ("\n" ++ toString ok ++ " ok, " ++ toString failed ++ " failed\n").toList
      = [] ++ '\n' :: ((toString ok).toList ++ " ok, ".toList ++ (toString failed).toList
        ++ " failed".toList ++ '\n' :: []) := by
    simp
  rw [htext, statusRows_append_feed, statusRows_append_feed, statusRows_nil, List.append_nil,
    List.nil_append, statusRows, rows_of_not_mem hfree, hcons, List.cons_append, List.cons_append,
    List.cons_append, List.filter_cons_of_neg, List.filter_nil]
  exact Bool.eq_false_iff.mp (isStatusRow_cons (hc 'o' rfl) (hc 'F' rfl) _)

theorem endsRow_counts (ok failed : Nat) :
    EndsRow ("\n" ++ toString ok ++ " ok, " ++ toString failed ++ " failed\n").toList := by
  refine .inr ⟨("\n" ++ toString ok ++ " ok, " ++ toString failed ++ " failed").toList, ?_⟩
  simp

theorem statusRows_entry (entry : String) :
    statusRows ("  " ++ entry ++ "\n").toList = addedRows entry.toList := by
  have htext : ("  " ++ entry ++ "\n").toList
      = ("  ".toList ++ entry.toList) ++ '\n' :: [] := by simp
  rw [htext, statusRows_append_feed, statusRows_nil, List.append_nil,
    statusRows_line (by decide), List.filter_cons_of_neg, List.filter_nil, List.nil_append]
  exact Bool.eq_false_iff.mp (isStatusRow_cons (by decide) (by decide) _)

theorem statusRows_files (listing : List String) :
    statusRows (if listing.isEmpty then ""
        else "\nfiles:\n" ++ String.join (listing.map fun entry ↦ "  " ++ entry ++ "\n")).toList
      = listing.flatMap fun entry ↦ addedRows entry.toList := by
  split
  · rename_i hempty
    rw [List.isEmpty_iff.mp hempty]
    rfl
  · have hhead : EndsRow "\nfiles:\n".toList := endsRow_feed "\nfiles:".toList
    have hrows : statusRows "\nfiles:\n".toList = [] := by decide
    rw [String.toList_append, hhead.statusRows_append, hrows, List.nil_append, String.toList_join,
      List.flatMap_map, statusRows_flatMap fun entry _ ↦ ?_]
    · simp only [statusRows_entry]
    · exact .inr ⟨"  ".toList ++ entry.toList, by simp⟩

/-- **The lines of the steps in a report**: one for each result, in order. Behind it stand the rows
that the text of its error adds, and at the end those that names of files add. -/
theorem statusRows_text {r : Report} (h : ∀ s ∈ r.results, '\n' ∉ s.label.toList) :
    statusRows r.text.toList
      = (r.results.flatMap fun s ↦ s.ownRow :: addedRows s.errorText)
        ++ r.listing.flatMap fun entry ↦ addedRows entry.toList := by
  have hhead : ∀ dry : Bool, EndsRow (if dry then "(dry run: nothing was written)\n" else "").toList
      ∧ statusRows (if dry then "(dry run: nothing was written)\n" else "").toList = [] := by
    intro dry
    cases dry
    · exact ⟨.inl rfl, rfl⟩
    · exact ⟨endsRow_feed "(dry run: nothing was written)".toList, by decide⟩
  obtain ⟨hends, hnone⟩ := hhead r.dryRun
  have hresults : (String.join (r.results.map StepResult.text)).toList
      = r.results.flatMap fun s ↦ s.text.toList := by
    rw [String.toList_join, List.flatMap_map]
  have hresultsEnd : EndsRow (r.results.flatMap fun s ↦ s.text.toList) :=
    EndsRow.flatMap fun s _ ↦ s.endsRow_text
  rw [text, String.toList_append, String.toList_append, String.toList_append, hresults,
    List.append_assoc, List.append_assoc, hends.statusRows_append, hnone, List.nil_append,
    hresultsEnd.statusRows_append, (endsRow_counts _ _).statusRows_append, statusRows_counts,
    List.nil_append, statusRows_files, statusRows_flatMap fun s _ ↦ s.endsRow_text]
  congr 1
  exact List.flatMap_congr fun s hs ↦ StepResult.statusRows_text (h s hs)

end Report

/-! ## Reports and briefs that can be believed -/

/-- The rows of a brief; there are none if nothing failed. -/
def briefRows (results : List StepResult) : List (List Char) :=
  match failureBrief? results with
  | none => []
  | some brief => rows brief.toList

theorem briefRows_eq (results : List StepResult) :
    briefRows results
      = (results.filterMap StepResult.failure?).flatMap fun f ↦ rows (briefLine f).toList := by
  rw [briefRows, failureBrief?]
  cases hfailures : results.filterMap StepResult.failure? with
  | nil => rfl
  | cons f rest =>
    have hjoined : (String.intercalate "\n" ((f :: rest).map briefLine)).toList
        = ['\n'].intercalate ((f :: rest).map fun f ↦ (briefLine f).toList) := by
      rw [String.toList_intercalate, List.map_map]
      rfl
    dsimp only
    rw [hjoined, rows_intercalate (by simp), List.flatMap_map]

namespace Report

/-- The lines of a report and of its brief tell what happened: as many start with each of the two
words as there are steps that ended in this way, there is one for each step in the order of the
steps, with its label, and the brief has one line for each failure. -/
structure IsLineFaithful (r : Report) : Prop where
  ok : (rows r.text.toList).countP ("ok     ".toList.isPrefixOf ·) = r.summary.ok
  failed : (rows r.text.toList).countP ("FAILED ".toList.isPrefixOf ·) = r.summary.failed
  inOrder : List.Forall₂ (fun row s ↦ s.rowStart.toList <+: row) (statusRows r.text.toList)
    r.results
  brief : briefRows r.results
    = (r.results.filterMap StepResult.failure?).map fun f ↦ (briefLine f).toList

section

variable {r : Report}

private theorem isPrefixOf_ok_ownRow (s : StepResult) :
    "ok     ".toList.isPrefixOf s.ownRow = s.isOk := by
  rw [StepResult.ownRow, StepResult.rowStart, StepResult.isOk]
  cases s.error <;> simp [List.isPrefixOf]

private theorem isPrefixOf_failed_ownRow (s : StepResult) :
    "FAILED ".toList.isPrefixOf s.ownRow = s.error.isSome := by
  rw [StepResult.ownRow, StepResult.rowStart]
  cases s.error <;> simp [List.isPrefixOf]

private theorem countP_rows {p : List Char → Bool}
    (hp : ∀ row, p row = true → isStatusRow row = true)
    (cs : List Char) : (rows cs).countP p = (statusRows cs).countP p := by
  rw [statusRows, List.countP_filter]
  refine List.countP_congr fun row _ ↦ ?_
  rw [Bool.and_eq_true]
  exact ⟨fun h ↦ ⟨h, hp row h⟩, And.left⟩

private theorem failed_summary (r : Report) :
    r.summary.failed = r.results.countP fun s ↦ s.error.isSome := by
  rw [Summary.failed, summary, Summary.ofResults, List.length_filterMap_eq_countP]
  simp [StepResult.failure?]

private theorem flatMap_ownRow {results : List StepResult}
    (herror : ∀ s ∈ results, '\n' ∉ s.errorText) :
    (results.flatMap fun s ↦ s.ownRow :: addedRows s.errorText)
      = results.map StepResult.ownRow := by
  rw [List.map_eq_flatMap]
  refine List.flatMap_congr fun s hs ↦ ?_
  rw [addedRows_of_not_mem (herror s hs)]

/-- Where no error has a line feed and no name of a file adds a row, the lines of the steps are
those of the results and nothing else. -/
theorem statusRows_text_eq_map (hlabel : ∀ s ∈ r.results, '\n' ∉ s.label.toList)
    (herror : ∀ s ∈ r.results, '\n' ∉ s.errorText)
    (hlisting : ∀ entry ∈ r.listing, addedRows entry.toList = []) :
    statusRows r.text.toList = r.results.map StepResult.ownRow := by
  have hnames : (r.listing.flatMap fun entry ↦ addedRows entry.toList) = [] :=
    List.flatMap_eq_nil_iff.mpr hlisting
  rw [statusRows_text hlabel, hnames, List.append_nil, flatMap_ownRow herror]

theorem isLineFaithful_of_not_mem (hlabel : ∀ s ∈ r.results, '\n' ∉ s.label.toList)
    (herror : ∀ s ∈ r.results, '\n' ∉ s.errorText)
    (hlisting : ∀ entry ∈ r.listing, addedRows entry.toList = []) : r.IsLineFaithful := by
  have hrows := statusRows_text_eq_map hlabel herror hlisting
  constructor
  · rw [countP_rows fun row hrow ↦ by rw [isStatusRow, hrow, Bool.true_or], hrows, List.countP_map]
    exact List.countP_congr fun s _ ↦ by rw [Function.comp_apply, isPrefixOf_ok_ownRow]
  · rw [countP_rows fun row hrow ↦ by rw [isStatusRow, hrow, Bool.or_true], hrows, List.countP_map,
      failed_summary]
    exact List.countP_congr fun s _ ↦ by rw [Function.comp_apply, isPrefixOf_failed_ownRow]
  · rw [hrows, List.forall₂_map_left_iff, List.forall₂_same]
    exact fun s _ ↦ s.rowStart_prefix
  · rw [briefRows_eq, List.map_eq_flatMap]
    refine List.flatMap_congr fun f hf ↦ rows_of_not_mem ?_
    obtain ⟨s, hs, hfailure⟩ := List.mem_filterMap.mp hf
    obtain ⟨e, he, rfl⟩ := Option.map_eq_some_iff.mp hfailure
    have hfree := herror s hs
    rw [StepResult.errorText, he] at hfree
    simp only [briefLine, String.toList_append, List.mem_append, not_or]
    exact ⟨⟨⟨by decide, hlabel s hs⟩, by decide⟩, hfree⟩

/-- **Lines that can be believed.** The lines of a report and of its brief tell what happened
exactly if the text of no error has a line feed, and no name of a file has a line that starts like
that of a step. -/
theorem isLineFaithful_iff (hlabel : ∀ s ∈ r.results, '\n' ∉ s.label.toList) :
    r.IsLineFaithful ↔ (∀ s ∈ r.results, '\n' ∉ s.errorText) ∧
      ∀ entry ∈ r.listing, addedRows entry.toList = [] := by
  constructor
  · intro h
    have herror : ∀ s ∈ r.results, '\n' ∉ s.errorText := by
      intro s hs
      rw [StepResult.errorText]
      cases he : s.error with
      | none => simp
      | some e =>
        -- The line of the failure is one row of the brief, so it has no line feed.
        have hfailure : (s.label, e) ∈ r.results.filterMap StepResult.failure? :=
          List.mem_filterMap.mpr ⟨s, hs, by rw [StepResult.failure?, he, Option.map_some]⟩
        have hrow : (briefLine (s.label, e)).toList ∈ briefRows r.results :=
          h.brief ▸ List.mem_map.mpr ⟨_, hfailure, rfl⟩
        rw [briefRows_eq, List.mem_flatMap] at hrow
        obtain ⟨f, -, hrow⟩ := hrow
        have hfree := not_mem_of_mem_splitChars List.not_mem_nil hrow
        simp only [briefLine, String.toList_append, List.mem_append, not_or] at hfree
        exact hfree.2
    refine ⟨herror, List.flatMap_eq_nil_iff.mp (List.length_eq_zero_iff.mp ?_)⟩
    have hlength := h.inOrder.length_eq
    rw [statusRows_text hlabel, flatMap_ownRow herror, List.length_append, List.length_map]
      at hlength
    omega
  · rintro ⟨herror, hlisting⟩
    exact isLineFaithful_of_not_mem hlabel herror hlisting

end

end Report

/-! ## Runs of plans that have been read -/

/-- A step of a plan that has been read has a label without line feeds, since its action is one of
the known ones. -/
theorem Step.not_mem_label {s : Step} (hs : s.Coerced) (index : Nat) :
    '\n' ∉ (s.label index).toList := by
  have haction : '\n' ∉ s.action.toList := by
    cases s with
    | unknown action => exact hs.elim
    | _ => simp [action]
  rw [label]
  simp only [String.toList_append, List.mem_append, not_or]
  exact ⟨⟨⟨by decide, not_mem_toString rfl _⟩, by decide⟩, haction⟩

namespace Context

theorem results_of_run {c : Context} {p : Plan} {r : Records} {t : FileTree} {report : Report}
    (h : (c.run p r t).1 = .ok report) : report.results = (c.runAll p t).1 := by
  rw [run] at h
  split at h
  · simp at h
  · exact congrArg Report.results (Except.ok.inj h).symm

theorem not_mem_label_of_run {c : Context} {p : Plan} (hp : p.Coerced) {r : Records} {t : FileTree}
    {report : Report} (h : (c.run p r t).1 = .ok report) :
    ∀ s ∈ report.results, '\n' ∉ s.label.toList := by
  intro s hs
  have hlabel : s.label ∈ (c.runAll p t).1.map (·.label) :=
    List.mem_map_of_mem (results_of_run h ▸ hs)
  rw [runAll, labels_runSteps] at hlabel
  obtain ⟨k, hk, hlabel⟩ := List.mem_mapIdx.mp hlabel
  rw [← hlabel]
  exact Step.not_mem_label (hp.2.2 _ (List.getElem_mem hk)) _

/-- **The lines of every run.** In the report of a plan that has been read, whatever it makes the
host do, each step has its line with its label, in order. Output adds nothing to these lines. What
stands between them are the lines that the text of an error or the name of a file holds behind a
line feed, so report and brief can be believed exactly if there are none. -/
theorem report_lines_of_run (raw : String) (p : Plan) (hparse : Plan.parse raw = .ok p)
    (c : Context) (r : Records) (t : FileTree) (report : Report)
    (hrun : (c.run p r t).1 = .ok report) :
    report.results.length = p.steps.length ∧
      Report.statusRows report.text.toList
        = (report.results.flatMap fun s ↦ s.ownRow :: Report.addedRows s.errorText)
          ++ report.listing.flatMap (fun entry ↦ Report.addedRows entry.toList) ∧
      (report.IsLineFaithful ↔ (∀ s ∈ report.results, '\n' ∉ s.errorText) ∧
        ∀ entry ∈ report.listing, Report.addedRows entry.toList = []) := by
  have hlabel := not_mem_label_of_run (Plan.coerced_of_parse hparse) hrun
  refine ⟨?_, Report.statusRows_text hlabel, Report.isLineFaithful_iff hlabel⟩
  rw [results_of_run hrun, runAll, length_runSteps]

/-- A plan as it may come from a generator: a command, and an edit of a file that is not there. -/
def planWithCommand : String :=
  "\x7b\"steps\":[\x7b\"action\":\"shell\",\"cmd\":\"make\"\x7d,"
    ++ "\x7b\"action\":\"edit\",\"path\":\"a\",\"find\":\"x\"\x7d]\x7d"

/-- A workspace in which commands are run, and all of them write a line that looks like that of a
step. -/
def feigning : Context where
  workspace := ⟨true, ["w"]⟩
  settings := { allowShell := true }
  trusted := true
  host := ⟨fun _ t ↦ (.ok ⟨.exited 0, ["made\nok     #2 edit\n".toUTF8], []⟩, t), Edit.compile⟩

/-- What a command writes cannot feign the line of a step. -/
theorem report_lines_of_run_of_feigning_command :
    ∃ p report, Plan.parse planWithCommand = .ok p ∧
      (feigning.run p .empty sampleTree).1 = .ok report ∧
      Report.statusRows report.text.toList = ["ok     #1 shell".toList,
        "FAILED #2 edit: cannot edit missing file \x60a\x60".toList] ∧
      report.IsLineFaithful := by
  have hparse : Plan.parse planWithCommand
      = .ok ⟨Plan.defaultGoal, ".", [.shell "make" none, .edit "a" (.literal "x") ""]⟩ := by
    decide +kernel
  have hrun := congrArg Prod.fst (run_eq_of_live (c := feigning)
    (p := ⟨Plan.defaultGoal, ".", [.shell "make" none, .edit "a" (.literal "x") ""]⟩)
    rfl rfl .empty sampleTree)
  obtain ⟨-, hrows, hiff⟩ := report_lines_of_run planWithCommand _ hparse feigning .empty sampleTree
    _ hrun
  refine ⟨_, _, hparse, hrun, hrows.trans ?_, hiff.mpr ⟨?_, ?_⟩⟩
  all_goals decide +kernel

/-- A plan as it may come from a generator, with a path in which there is a line feed. -/
def planWithLineFeed : String :=
  "\x7b\"steps\":[\x7b\"action\":\"edit\",\"path\":\"a\\nok     #2 write\",\"find\":\"x\"\x7d]\x7d"

/-- The line feed in the path makes a line for a step that the plan does not have, and a second line
of a brief about one failure. -/
theorem line_feed_feigns_step :
    ∃ p report, Plan.parse planWithLineFeed = .ok p ∧
      ((bare ⟨true, ["w"]⟩).run p .empty sampleTree).1 = .ok report ∧
      report.results.length = 1 ∧ report.summary.ok = 0 ∧ report.summary.failed = 1 ∧
      ("ok     #2 write`".toList ∈ rows report.text.toList) ∧
      (briefRows report.results).length = 2 := by
  have hparse : Plan.parse planWithLineFeed
      = .ok ⟨Plan.defaultGoal, ".", [.edit "a\nok     #2 write" (.literal "x") ""]⟩ := by
    decide +kernel
  refine ⟨_, _, hparse, congrArg Prod.fst (run_eq_of_live rfl rfl .empty sampleTree), ?_, ?_, ?_,
    ?_, ?_⟩
  all_goals decide +kernel

end Context

end Planbox
