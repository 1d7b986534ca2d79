import Mathlib.Tactic.Common
import Planbox.Install
import Planbox.Proofs.ShellWords

/-!
# The command that installs packages

The names of packages come from a plan and can be any text. In double quotes, with backslashes and
double quotes escaped, blanks, line feeds and empty names are harmless; what keeps its meaning is a
backquote, and a dollar sign in front of what it can introduce. So the command line names the
packages as they are exactly if none of them holds one of these.
-/

namespace Planbox

namespace Text

theorem replaceRun_singleton (c : Char) (with_ cs acc : List Char) :
    replaceRun [c] with_ 0 cs acc
      = acc.reverse ++ cs.flatMap fun d ↦ if c = d then with_ else [d] := by
  induction cs generalizing acc with
  | nil => simp [replaceRun]
  | cons d cs ih =>
    rw [replaceRun]
    by_cases h : c = d
    · obtain rfl := h
      simp [afterLead?, ih]
    · simp [afterLead?, h, ih]

theorem toList_replaceAll_singleton (text : String) (c : Char) (with_ : String) :
    (replaceAll text c.toString with_).toList
      = text.toList.flatMap fun d ↦ if c = d then with_.toList else [d] := by
  have hc : c.toString.toList = [c] := by simp
  rw [replaceAll, hc, if_neg (by simp), String.toList_ofList, replaceRun_singleton]
  rfl

end Text

/-- The words of the settings stand for themselves, and the first of them names a command. -/
structure InstallSettings.IsPlain (s : InstallSettings) : Prop where
  command : ∃ name args, s.command = name :: args ∧ Shell.isCommandName name = true ∧
    ∀ w ∈ args, Shell.isPlain w = true
  devFlag : s.devFlag ≠ "" → Shell.isPlain s.devFlag = true

namespace Install

open Shell

/-- The words a command line of these settings begins with. -/
def leading (s : InstallSettings) (dev : Bool) : List String :=
  s.command ++ if dev && !s.devFlag.isEmpty then [s.devFlag] else []

/-- Both replacements together escape each character on its own. -/
theorem toList_quote (package : String) :
    (quote package).toList = '"' :: (package.toList.flatMap escapeChar ++ ['"']) := by
  have hescape : ∀ c, (if '\\' = c then "\\\\".toList else [c]).flatMap
      (fun d ↦ if '"' = d then "\\\"".toList else [d]) = escapeChar c := by
    intro c
    unfold escapeChar
    by_cases hbackslash : c = '\\'
    · subst hbackslash
      rfl
    · by_cases hquote : c = '"'
      · subst hquote
        rfl
      · simp [hbackslash, hquote, Ne.symm hbackslash, Ne.symm hquote]
  have hfirst : (Text.replaceAll package "\\" "\\\\").toList
      = package.toList.flatMap fun c ↦ if '\\' = c then "\\\\".toList else [c] :=
    Text.toList_replaceAll_singleton package '\\' "\\\\"
  have hsecond : (Text.replaceAll (Text.replaceAll package "\\" "\\\\") "\"" "\\\"").toList
      = (Text.replaceAll package "\\" "\\\\").toList.flatMap fun c ↦
        if '"' = c then "\\\"".toList else [c] :=
    Text.toList_replaceAll_singleton _ '"' "\\\""
  rw [hfirst, List.flatMap_assoc] at hsecond
  simp only [hescape] at hsecond
  rw [quote, String.toList_append, String.toList_append, hsecond]
  rfl

theorem exists_spellings_plain {ws : List String} (h : ∀ w ∈ ws, isPlain w = true) :
    ∃ spellings : List Spelling, ws.map String.toList = spellings.map (·.chars) ∧
      spellings.map (·.field) = ws := by
  induction ws with
  | nil => exact ⟨[], rfl, rfl⟩
  | cons w ws ih =>
    obtain ⟨hw, hws⟩ := List.forall_mem_cons.mp h
    obtain ⟨spellings, hchars, hfields⟩ := ih hws
    exact ⟨⟨_, _, w, .plain hw⟩ :: spellings, by simp [hchars], by simp [hfields]⟩

theorem exists_spellings_quoted {packages : List String}
    (h : ∀ p ∈ packages, isActive p.toList = false) :
    ∃ spellings : List Spelling, (packages.map quote).map String.toList = spellings.map (·.chars) ∧
      spellings.map (·.field) = packages := by
  induction packages with
  | nil => exact ⟨[], rfl, rfl⟩
  | cons p packages ih =>
    obtain ⟨hp, hpackages⟩ := List.forall_mem_cons.mp h
    obtain ⟨spellings, hchars, hfields⟩ := ih hpackages
    exact ⟨⟨_, _, p, .quoted hp⟩ :: spellings, by simp [hchars, toList_quote], by simp [hfields]⟩

/-- The leading words, spelled. The first one can name a command. -/
theorem exists_spellings_leading {s : InstallSettings} (hs : s.IsPlain) (dev : Bool) :
    ∃ (first : Spelling) (spellings : List Spelling),
      (leading s dev).map String.toList = (first :: spellings).map (·.chars) ∧
      (first :: spellings).map (·.field) = leading s dev ∧
      (Token.word first.word).reserved? = none ∧ assignment? first.word = none := by
  obtain ⟨name, args, hcommand, hname, hargs⟩ := hs.command
  simp only [isCommandName, Bool.and_eq_true, Bool.not_eq_true', Option.isNone_iff_eq_none] at hname
  obtain ⟨⟨hplain, hreserved⟩, hassign⟩ := hname
  have hrest : ∀ w ∈ args ++ (if dev && !s.devFlag.isEmpty then [s.devFlag] else []),
      isPlain w = true := by
    intro w hw
    rcases List.mem_append.mp hw with hw | hw
    · exact hargs w hw
    · split at hw
      · rename_i hflag
        obtain rfl := List.mem_singleton.mp hw
        exact hs.devFlag (by simpa using (Bool.and_eq_true_iff.mp hflag).2)
      · simp at hw
  obtain ⟨spellings, hchars, hfields⟩ := exists_spellings_plain hrest
  refine ⟨⟨_, _, name, .plain hplain⟩, spellings, ?_, ?_, ?_, hassign⟩
  · rw [leading, hcommand, List.cons_append, List.map_cons, hchars, List.map_cons]
  · rw [leading, hcommand, List.cons_append, List.map_cons, hfields]
  · simp only [Token.reserved?, Word.plain?, hreserved, Bool.false_eq_true, if_false]

/-- **The packages are named as they are** on the command line, each by a word of its own behind the
words of the settings, exactly if none of them has something to be expanded in it. -/
theorem isCall_command_iff (s : InstallSettings) (hs : s.IsPlain) (packages : List String)
    (dev : Bool) :
    IsCall (command s packages dev) (leading s dev ++ packages) ↔
      ∀ p ∈ packages, isActive p.toList = false := by
  obtain ⟨first, spellings, hchars, hfields, hreserved, hassign⟩ := exists_spellings_leading hs dev
  constructor
  · intro hcall p hp
    by_contra hactive
    obtain ⟨bad, hfind⟩ : ∃ bad, packages.find? (fun p ↦ isActive p.toList) = some bad :=
      Option.isSome_iff_exists.mp (List.find?_isSome.mpr ⟨p, hp, by simpa using hactive⟩)
    obtain ⟨hbad, good, more, rfl, hgood⟩ := List.find?_eq_some_iff_append.mp hfind
    obtain ⟨quoted, hquoted, -⟩ := exists_spellings_quoted fun p hp ↦ by simpa using hgood p hp
    have hleading : (leading s dev ++ good.map quote).map String.toList
        = (first :: spellings ++ quoted).map (·.chars) := by
      rw [List.map_append, List.map_append, hchars, hquoted]
    have hnot := not_isCall_of_active hleading (toList_quote bad) hbad (more.map quote)
      (leading s dev ++ (good ++ bad :: more))
    refine hnot ?_
    simpa [command, words, leading] using hcall
  · intro hpackages
    obtain ⟨quoted, hquoted, hpackages⟩ := exists_spellings_quoted hpackages
    have hwords : (leading s dev ++ packages.map quote).map String.toList
        = (first :: (spellings ++ quoted)).map (·.chars) := by
      rw [← List.cons_append, List.map_append, List.map_append, hquoted, ← hchars]
    have hcall := isCall_of_spelled hwords hreserved hassign
    rwa [← List.cons_append, List.map_append, hfields, hpackages] at hcall

theorem isPlain_default : InstallSettings.IsPlain {} where
  command := ⟨"npm", ["install"], rfl, by decide +kernel, by decide +kernel⟩
  devFlag _ := by decide +kernel

/-- Quotes, a backslash at the end, blanks, a line feed, an empty name, a pattern and a dollar sign
that introduces nothing. -/
theorem isCall_command_of_odd_names :
    InstallSettings.IsPlain {} ∧
      IsCall (command {} ["we\"ird", "\\", "two words\n", "", "*", "a$"] true)
        (["npm", "install", "--save-dev"] ++ ["we\"ird", "\\", "two words\n", "", "*", "a$"]) :=
  ⟨isPlain_default, (isCall_command_iff {} isPlain_default
    ["we\"ird", "\\", "two words\n", "", "*", "a$"] true).mpr (by decide +kernel)⟩

/-- Settings that only show the packages. -/
def echoing : InstallSettings where
  command := ["echo"]
  devFlag := ""

/-- The output of a command in a name stands in place of the name. -/
theorem command_in_name_substituted :
    echoing.IsPlain ∧ command echoing ["$(echo hi)"] false = "echo \"$(echo hi)\"" ∧
      ¬IsCall (command echoing ["$(echo hi)"] false) ["echo", "$(echo hi)"] := by
  have hplain : echoing.IsPlain :=
    ⟨⟨"echo", [], rfl, by decide +kernel, by decide⟩, fun h ↦ absurd rfl h⟩
  have hcommand : command echoing ["$(echo hi)"] false = "echo \"$(echo hi)\"" := by
    decide +kernel
  obtain ⟨spellings, hspellings, -⟩ :=
    exists_spellings_plain (show ∀ w ∈ ["echo"], isPlain w = true by decide +kernel)
  refine ⟨hplain, hcommand, ?_⟩
  exact not_isCall_of_active hspellings (toList_quote "$(echo hi)") (by decide +kernel) [] _

end Install

end Planbox
