import Mathlib.Data.List.Forall2
import Planbox.Proofs.TomlValues

/-!
# Documents read back

A document as the writer lays it out has some members first and then tables with a header each, and
no key occurs twice where it would be in doubt. Such a document is read line by line, each of which
is one statement, and the statements make up the members and the tables in the order of the text
(`Toml.read?_document`).
-/

namespace Planbox.Toml

def IsKey (key : String) : Prop := key ≠ "" ∧ ∀ c ∈ key.toList, isBare c = true

instance : DecidablePred IsKey := fun key ↦
  decidable_of_iff (key ≠ "" ∧ key.toList.all isBare = true) (by rw [List.all_eq_true, IsKey])

/-- A member as it is written, and its value. -/
structure Member where
  key : String
  written : String
  value : Toml

namespace Member

def line (m : Member) : String := memberLine (m.key, m.written)

/-- The statement that the line of a member is. -/
def statement (m : Member) : Statement := .member [m.key] m.value

def entry (m : Member) : String × Toml := (m.key, m.value)

/-- The line of a member is read as the member. -/
structure IsRead (m : Member) : Prop where
  isKey : IsKey m.key
  isWritten : IsWritten m.written.toList m.value

end Member

/-- A table with a header and the members below it. -/
structure Section where
  name : String
  members : List Member

namespace Section

def text (x : Section) : String := writeTable x.name (x.members.map fun m ↦ (m.key, m.written))

/-- The lines of the text of a table; the blank line and the header are the first one. -/
def lines (x : Section) : List (List Char) :=
  (['\n', '['] ++ (x.name.toList ++ [']', '\n'])) :: x.members.map fun m ↦ m.line.toList

def statements (x : Section) : List Statement :=
  .header [x.name] :: x.members.map Member.statement

def entry (x : Section) : String × Toml := (x.name, .table .header (x.members.map Member.entry))

/-- The text of a table is read as the table. -/
structure IsRead (x : Section) : Prop where
  isKey : IsKey x.name
  members : ∀ m ∈ x.members, m.IsRead
  nodup : (x.members.map Member.key).Nodup

end Section

variable {c : Char} {key name : String} {written rest line : List Char} {value : Toml}
  {statement : Statement} {members : Members}

/-! ## Lines -/

/-- A line, and the statement that is on it. There is a blank line in front of a header. -/
inductive IsLine : List Char → Statement → Prop
  | member {key : String} {written : List Char} {value : Toml} : IsKey key →
      IsWritten written value →
      IsLine (key.toList ++ ([' ', '=', ' '] ++ (written ++ ['\n']))) (.member [key] value)
  | header {name : String} : IsKey name →
      IsLine (['\n', '['] ++ (name.toList ++ [']', '\n'])) (.header [name])

theorem ne_of_isBare {d : Char} (h : isBare c = true) (hd : isBare d = false) : c ≠ d := by
  rintro rfl
  exact absurd (h.symm.trans hd) (by simp)

theorem IsKey.exists_cons (hkey : IsKey key) : ∃ c cs, key.toList = c :: cs ∧ isBare c = true := by
  obtain ⟨c, cs, hcons⟩ := List.exists_cons_of_ne_nil (by simpa using hkey.1 : key.toList ≠ [])
  exact ⟨c, cs, hcons, hkey.2 c (hcons ▸ List.mem_cons_self)⟩

theorem readKey?_append (hkey : IsKey key) (hrest : ∀ c ∈ rest.head?, isBare c = false) :
    readKey? (key.toList ++ rest) = some (key, rest) := by
  have htake : (key.toList ++ rest).takeWhile isBare = key.toList :=
    takeWhile_append_of_head hkey.2 hrest
  obtain ⟨c, cs, hcons, -⟩ := hkey.exists_cons
  rw [readKey?, htake]
  split
  · rename_i hnil
    exact absurd (hnil.symm.trans hcons) (by simp)
  · rw [List.drop_left, String.ofList_toList]

theorem IsKey.skipSpace_append (hkey : IsKey key) (rest : List Char) :
    skipSpace (key.toList ++ rest) = key.toList ++ rest := by
  obtain ⟨c, cs, hcons, hbare⟩ := hkey.exists_cons
  have hspace : isSpace c = false := by
    simp [isSpace, ne_of_isBare hbare (by decide : isBare ' ' = false),
      ne_of_isBare hbare (by decide : isBare '\t' = false)]
  rw [hcons, List.cons_append, skipSpace, List.dropWhile_cons_of_neg (by simp [hspace])]

theorem readPath?_append (hkey : IsKey key) (hrest : ∀ c ∈ rest.head?, isBare c = false)
    (hpoint : (skipSpace rest).head? ≠ some '.') (fuel : Nat) :
    readPath? (fuel + 1) (key.toList ++ rest) = some ([key], skipSpace rest) := by
  rw [readPath?, hkey.skipSpace_append, readKey?_append hkey hrest]
  simp only
  split
  · rename_i heq
    exact absurd (by rw [heq]; rfl) hpoint
  · rfl

theorem endLine?_newline (rest : List Char) : endLine? ('\n' :: rest) = some rest := rfl

theorem readStatement_member (hkey : IsKey key) (hwritten : IsWritten written value) {fuel : Nat}
    (hfuel : written.length < fuel) (rest : List Char) :
    readStatement fuel (key.toList ++ ([' ', '=', ' '] ++ (written ++ '\n' :: rest)))
      = some (.member [key] value, rest) := by
  obtain ⟨c, cs, hcons, hbare⟩ := hkey.exists_cons
  have hbracket : ∀ more, key.toList ++ ([' ', '=', ' '] ++ (written ++ '\n' :: rest))
      ≠ '[' :: more := by
    rw [hcons]
    exact fun more heq ↦ ne_of_isBare hbare (by decide) (List.cons.inj heq).1
  have hpath : readPath? fuel (key.toList ++ ([' ', '=', ' '] ++ (written ++ '\n' :: rest)))
      = some ([key], '=' :: ' ' :: (written ++ '\n' :: rest)) := by
    obtain ⟨fuel, rfl⟩ := Nat.exists_eq_add_of_lt hfuel
    exact readPath?_append hkey (by simp [isBare]) (by simp [skipSpace, isSpace]) _
  have hspace : skipSpace (' ' :: (written ++ '\n' :: rest)) = written ++ '\n' :: rest := by
    rw [skipSpace, List.dropWhile_cons_of_pos (by decide)]
    have hhead := hwritten.head
    cases written with
    | nil => simp [isSpace]
    | cons d written => simp [hhead d rfl]
  rw [readStatement.eq_3 _ _ (fun more ↦ hbracket _) hbracket, hpath]
  simp only [hspace, hwritten.read fuel rest hfuel, endLine?_newline]
  rfl

theorem readStatement_header (hname : IsKey name) (fuel : Nat) (rest : List Char) :
    readStatement (fuel + 1) ('[' :: (name.toList ++ ']' :: '\n' :: rest))
      = some (.header [name], rest) := by
  obtain ⟨c, cs, hcons, hbare⟩ := hname.exists_cons
  have hbracket : ∀ more, '[' :: (name.toList ++ ']' :: '\n' :: rest) ≠ '[' :: '[' :: more := by
    rw [hcons]
    exact fun more heq ↦
      ne_of_isBare hbare (by decide) (List.cons.inj (List.cons.inj heq).2).1
  have hpath : readPath? (fuel + 1) (name.toList ++ ']' :: '\n' :: rest)
      = some ([name], ']' :: '\n' :: rest) :=
    readPath?_append hname (by simp [isBare]) (by simp [skipSpace, isSpace]) fuel
  rw [readStatement.eq_2 _ _ fun more heq ↦ hbracket more (congrArg _ heq), hpath]
  rfl

theorem notMem_gapStarts_of_isBare (h : isBare c = true) : c ∉ gapStarts := by
  have hgaps : ∀ d ∈ gapStarts, isBare d = false := by simp [gapStarts, isBare]
  exact fun hc ↦ ne_of_isBare h (hgaps c hc) rfl

theorem IsLine.exists_start (h : IsLine line statement) : ∃ gap c body, line = gap ++ c :: body ∧
    (∀ d ∈ gap, d = ' ' ∨ d = '\n') ∧ c ∉ gapStarts ∧
      ∀ size rest, line.length < size →
        readStatement size (c :: (body ++ rest)) = some (statement, rest) := by
  cases h with
  | @member key written value hkey hwritten =>
    obtain ⟨c, cs, hcons, hbare⟩ := hkey.exists_cons
    refine ⟨[], c, cs ++ ([' ', '=', ' '] ++ (written ++ ['\n'])), by simp [hcons], by simp,
      notMem_gapStarts_of_isBare hbare, fun size rest hsize ↦ ?_⟩
    have hfuel : written.length < size := by
      simp at hsize
      omega
    simpa [hcons] using readStatement_member hkey hwritten hfuel rest
  | @header name hname =>
    refine ⟨['\n'], '[', name.toList ++ [']', '\n'], rfl, by simp, by decide,
      fun size rest hsize ↦ ?_⟩
    obtain ⟨size, rfl⟩ := Nat.exists_eq_add_of_lt hsize
    simpa using readStatement_header hname _ rest

theorem IsLine.readStatements (h : IsLine line statement) {size : Nat} (hsize : line.length < size)
    (fuel : Nat) (rest : List Char) (acc : List Statement) :
    readStatements size (fuel + 1) (line ++ rest) acc
      = readStatements size fuel rest (statement :: acc) := by
  obtain ⟨gap, c, body, rfl, hgap, hc, hread⟩ := h.exists_start
  obtain ⟨more, hmore⟩ := Nat.exists_eq_add_of_lt hsize
  rw [Toml.readStatements, List.append_assoc, List.cons_append, hmore,
    skipGaps_append hgap hc, ← hmore]
  simp only [hread size rest hsize]

/-- The statements of a document are those of its lines. -/
theorem readStatements_lines {lines : List (List Char)} {statements : List Statement}
    (h : List.Forall₂ IsLine lines statements) {size fuel : Nat}
    (hsize : lines.flatten.length < size) (hfuel : lines.length < fuel) (acc : List Statement) :
    readStatements size fuel (lines.flatten ++ ['\n']) acc = some (acc.reverse ++ statements) := by
  induction h generalizing fuel acc with
  | nil =>
    obtain ⟨fuel, rfl⟩ := Nat.exists_eq_add_of_lt hfuel
    obtain ⟨size, rfl⟩ := Nat.exists_eq_add_of_lt hsize
    rw [Toml.readStatements, skipGaps]
    simp [dropGaps]
  | @cons line statement lines statements hline _ ih =>
    rw [List.flatten_cons, List.length_append] at hsize
    rw [List.length_cons] at hfuel
    obtain ⟨fuel, rfl⟩ : ∃ more, fuel = more + 1 := ⟨fuel - 1, by omega⟩
    rw [List.flatten_cons, List.append_assoc, hline.readStatements (by omega),
      ih (by omega) (by omega)]
    simp

/-! ## Tables -/

theorem update_of_notMem {change : Option Toml → Option Toml} (h : key ∉ members.map Prod.fst) :
    update key change members = (change none).map fun v ↦ members ++ [(key, v)] := by
  induction members with
  | nil => rfl
  | cons m members ih =>
    obtain ⟨k, v⟩ := m
    obtain ⟨hk, hmembers⟩ : key ≠ k ∧ key ∉ members.map Prod.fst := by simpa using h
    rw [update, if_neg (Ne.symm hk), ih hmembers, Option.map_map]
    rfl

theorem update_concat {change : Option Toml → Option Toml} (h : key ∉ members.map Prod.fst)
    (value : Toml) : update key change (members ++ [(key, value)])
      = (change (some value)).map fun v ↦ members ++ [(key, v)] := by
  induction members with
  | nil => simp [update]
  | cons m members ih =>
    obtain ⟨k, v⟩ := m
    obtain ⟨hk, hmembers⟩ : key ≠ k ∧ key ∉ members.map Prod.fst := by simpa using h
    rw [List.cons_append, update, if_neg (Ne.symm hk), ih hmembers, Option.map_map]
    rfl

theorem add_header (h : name ∉ members.map Prod.fst) (here : List String) :
    Document.add ⟨members, here⟩ (.header [name])
      = some ⟨members ++ [(name, .table .header [])], [name]⟩ := by
  simp [Document.add, Document.enter, descend, addHeader, update_of_notMem h]

theorem add_member (h : key ∉ members.map Prod.fst) (value : Toml) :
    Document.add ⟨members, []⟩ (.member [key] value) = some ⟨members ++ [(key, value)], []⟩ := by
  simp [Document.add, descend, addMember, addNew, update_of_notMem h]

theorem add_member_table {inner : Members} (hname : name ∉ members.map Prod.fst)
    (h : key ∉ inner.map Prod.fst) (value : Toml) :
    Document.add ⟨members ++ [(name, .table .header inner)], [name]⟩ (.member [key] value)
      = some ⟨members ++ [(name, .table .header (inner ++ [(key, value)]))], [name]⟩ := by
  simp [Document.add, descend, update_concat hname, addMember, addNew, update_of_notMem h]

variable {ms : List Member}

theorem notMem_of_nodup_append_cons {keys more : List String}
    (h : (keys ++ key :: more).Nodup) : key ∉ keys ∧ (keys ++ [key] ++ more).Nodup := by
  refine ⟨fun hmem ↦ ?_, by rwa [List.append_assoc]⟩
  exact (List.nodup_append.mp h).2.2 key hmem key List.mem_cons_self rfl

theorem foldlM_members (h : (members.map Prod.fst ++ ms.map Member.key).Nodup) :
    (ms.map Member.statement).foldlM Document.add ⟨members, []⟩
      = some ⟨members ++ ms.map Member.entry, []⟩ := by
  induction ms generalizing members with
  | nil => simp
  | cons m ms ih =>
    obtain ⟨hkey, hmore⟩ := notMem_of_nodup_append_cons h
    rw [List.map_cons, List.foldlM_cons, Member.statement, add_member hkey]
    refine (ih (by simpa using hmore)).trans ?_
    simp [Member.entry]

theorem foldlM_table {inner : Members} (hname : name ∉ members.map Prod.fst)
    (h : (inner.map Prod.fst ++ ms.map Member.key).Nodup) :
    (ms.map Member.statement).foldlM Document.add
        ⟨members ++ [(name, .table .header inner)], [name]⟩
      = some ⟨members ++ [(name, .table .header (inner ++ ms.map Member.entry))], [name]⟩ := by
  induction ms generalizing inner with
  | nil => simp
  | cons m ms ih =>
    obtain ⟨hkey, hmore⟩ := notMem_of_nodup_append_cons h
    rw [List.map_cons, List.foldlM_cons, Member.statement, add_member_table hname hkey]
    refine (ih (by simpa using hmore)).trans ?_
    simp [Member.entry]

theorem foldlM_sections {sections : List Section} (here : List String)
    (h : (members.map Prod.fst ++ sections.map Section.name).Nodup)
    (hkeys : ∀ x ∈ sections, (x.members.map Member.key).Nodup) :
    ((sections.flatMap Section.statements).foldlM Document.add ⟨members, here⟩).map (·.root)
      = some (members ++ sections.map Section.entry) := by
  induction sections generalizing members here with
  | nil => simp
  | cons x sections ih =>
    obtain ⟨hname, hmore⟩ := notMem_of_nodup_append_cons h
    obtain ⟨hx, hsections⟩ := List.forall_mem_cons.mp hkeys
    rw [List.flatMap_cons, Section.statements, List.foldlM_append, List.foldlM_cons,
      add_header hname]
    have htable : (x.members.map Member.statement).foldlM Document.add
        ⟨members ++ [(x.name, .table .header [])], [x.name]⟩
          = some ⟨members ++ [x.entry], [x.name]⟩ := foldlM_table hname (by simpa using hx)
    simp only [Option.bind_eq_bind, Option.bind_some, htable]
    refine (ih [x.name] (by simpa [Section.entry] using hmore) hsections).trans ?_
    simp

/-! ## Documents -/

theorem Member.IsRead.isLine {m : Member} (h : m.IsRead) : IsLine m.line.toList m.statement := by
  have hline : m.line.toList
      = m.key.toList ++ ([' ', '=', ' '] ++ (m.written.toList ++ ['\n'])) := by
    simp [Member.line, memberLine]
  rw [hline]
  exact .member h.isKey h.isWritten

theorem forall₂_line (h : ∀ m ∈ ms, m.IsRead) :
    List.Forall₂ IsLine (ms.map fun m ↦ m.line.toList) (ms.map Member.statement) := by
  rw [List.forall₂_map_left_iff, List.forall₂_map_right_iff, List.forall₂_same]
  exact fun m hm ↦ (h m hm).isLine

theorem Section.toList_text (x : Section) : x.text.toList = x.lines.flatten := by
  have hmembers : (String.join ((x.members.map fun m ↦ (m.key, m.written)).map memberLine)).toList
      = (x.members.map fun m ↦ m.line.toList).flatten := by
    rw [String.toList_join, List.map_map, List.flatMap_map]
    rfl
  rw [text, writeTable, String.toList_append, hmembers, lines, List.flatten_cons]
  simp

theorem Section.IsRead.forall₂_lines {x : Section} (h : x.IsRead) :
    List.Forall₂ IsLine x.lines x.statements :=
  .cons (.header h.isKey) (forall₂_line h.members)

theorem IsLine.exists_head (h : IsLine line statement) :
    ∃ c cs, line = c :: cs ∧ c ≠ '\uFEFF' := by
  cases h with
  | @member key written value hkey hwritten =>
    obtain ⟨c, cs, hcons, hbare⟩ := hkey.exists_cons
    rw [hcons]
    exact ⟨c, _, rfl, ne_of_isBare hbare (by decide)⟩
  | header hname => exact ⟨'\n', _, rfl, by decide⟩

theorem length_le_flatten {lines : List (List Char)} {statements : List Statement}
    (h : List.Forall₂ IsLine lines statements) : lines.length ≤ lines.flatten.length := by
  induction h with
  | nil => exact Nat.le_refl _
  | cons hline _ ih =>
    obtain ⟨c, cs, rfl, -⟩ := hline.exists_head
    rw [List.length_cons, List.flatten_cons, List.length_append, List.length_cons]
    omega

theorem dropMark_of_ne (h : c ≠ '\uFEFF') (rest : List Char) :
    dropMark (c :: rest) = c :: rest := by
  rw [dropMark.eq_2]
  exact fun cs heq ↦ h (List.cons.inj heq).1

/-- A document of lines, with a line end behind them, is the table that their statements make up. -/
theorem read?_lines {text : String} {lines : List (List Char)} {statements : List Statement}
    (htext : text.toList = lines.flatten ++ ['\n']) (h : List.Forall₂ IsLine lines statements) :
    read? text = assemble statements := by
  have hmark : dropMark text.toList = lines.flatten ++ ['\n'] := by
    rw [htext]
    cases h with
    | nil => rfl
    | cons hline _ =>
      obtain ⟨c, cs, rfl, hc⟩ := hline.exists_head
      exact dropMark_of_ne hc _
  have hlength := length_le_flatten h
  have hsize : (lines.flatten ++ ['\n']).length = lines.flatten.length + 1 := List.length_append
  rw [read?, hmark, readStatements_lines h (by omega) (by omega)]
  rfl

/-- **Documents are read back.** What is written as some members and some tables is read as these,
in the order of the text. -/
theorem read?_document {top : List Member} {sections : List Section}
    (htop : ∀ m ∈ top, m.IsRead) (hsections : ∀ x ∈ sections, x.IsRead)
    (hnames : (top.map Member.key ++ sections.map Section.name).Nodup) :
    read? (String.join (top.map Member.line) ++ String.join (sections.map Section.text) ++ "\n")
      = some (top.map Member.entry ++ sections.map Section.entry) := by
  have htext : (String.join (top.map Member.line) ++ String.join (sections.map Section.text)
      ++ "\n").toList = ((top.map fun m ↦ m.line.toList)
        ++ sections.flatMap Section.lines).flatten ++ ['\n'] := by
    rw [String.toList_append, String.toList_append, String.toList_join, String.toList_join,
      List.flatten_append]
    congr 2
    · rw [List.flatMap_map]
      rfl
    · rw [List.flatMap_map, List.flatMap_def, List.flatMap_def, List.flatten_flatten, List.map_map,
        List.map_congr_left fun x _ ↦ x.toList_text]
      rfl
  have hlines : List.Forall₂ IsLine (sections.flatMap Section.lines)
      (sections.flatMap Section.statements) := by
    clear htext hnames
    induction sections with
    | nil => exact .nil
    | cons x sections ih =>
      obtain ⟨hx, hmore⟩ := List.forall_mem_cons.mp hsections
      exact List.rel_append hx.forall₂_lines (ih hmore)
  have htopread : (top.map Member.statement).foldlM Document.add ⟨[], []⟩
      = some ⟨[] ++ top.map Member.entry, []⟩ := foldlM_members (List.nodup_append.mp hnames).1
  rw [read?_lines htext (List.rel_append (forall₂_line htop) hlines), assemble,
    List.foldlM_append, htopread]
  exact foldlM_sections [] (by simpa [Function.comp_def, Member.entry] using hnames)
    fun x hx ↦ (hsections x hx).nodup

end Planbox.Toml
