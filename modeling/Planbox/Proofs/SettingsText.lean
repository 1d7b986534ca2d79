import Planbox.Proofs.TomlDocument
import Planbox.Settings.Text

/-!
# Settings read back

The text of settings names every setting but a time limit that is not set, and the default of that
one is that there is none. So settings are read from their own text as what they are, provided that
their numbers are of the size that the reader admits; and what is read from any text has numbers of
this size.
-/

namespace Planbox.Settings

/-- Numbers are of the size that they have in settings. -/
structure IsSized (s : Settings) : Prop where
  maxRepairAttempts : s.maxRepairAttempts < attemptBound
  outputLimit : s.outputLimit < wordBound
  shellTimeoutSecs : ∀ n ∈ s.shellTimeoutSecs, n < wordBound
  generatorTimeoutSecs : s.generator.timeoutSecs < wordBound

variable {s : Settings}

open Toml (Member Section)

def numberMember (key : String) (n : Nat) : Member := ⟨key, toString n, .integer n⟩

def flagMember (key : String) (b : Bool) : Member := ⟨key, Toml.writeBoolean b, .boolean b⟩

def textMember (key text : String) : Member := ⟨key, Toml.quote text, .string text⟩

def listMember (key : String) (items : List String) : Member :=
  ⟨key, Toml.writeStrings items, .array (items.map .string)⟩

def members (s : Settings) : List Member :=
  [flagMember "dry_run" s.dryRun, flagMember "allow_shell" s.allowShell,
    flagMember "allow_install" s.allowInstall,
    flagMember "require_trusted_workspace" s.requireTrust, flagMember "auto_repair" s.autoRepair,
    numberMember "max_repair_attempts" s.maxRepairAttempts,
    numberMember "output_limit_bytes" s.outputLimit]
  ++ (s.shellTimeoutSecs.map (numberMember "shell_timeout_secs")).toList

/-- The sections of settings. -/
def sections (s : Settings) : List Section :=
  [⟨"shell", [textMember "program" s.shell.program, listMember "args" s.shell.args]⟩,
    ⟨"install", [listMember "command" s.install.command, textMember "dev_flag" s.install.devFlag]⟩,
    ⟨"generator", [listMember "command" s.generator.command,
      numberMember "timeout_secs" s.generator.timeoutSecs]⟩,
    ⟨"listing", [listMember "ignore" s.listing.ignore]⟩]

theorem toText_eq (s : Settings) : s.toText = String.join (s.members.map Member.line)
    ++ String.join (s.sections.map Section.text) ++ "\n" := by
  have htop : s.topMembers.map Toml.memberLine = s.members.map Member.line := by
    rw [topMembers, members, List.map_append, List.map_append]
    cases s.shellTimeoutSecs <;> rfl
  have hsections : String.join (s.sections.map Section.text)
      = Toml.writeTable "shell"
          [("program", Toml.quote s.shell.program), ("args", Toml.writeStrings s.shell.args)]
        ++ Toml.writeTable "install"
          [("command", Toml.writeStrings s.install.command),
            ("dev_flag", Toml.quote s.install.devFlag)]
        ++ Toml.writeTable "generator"
          [("command", Toml.writeStrings s.generator.command),
            ("timeout_secs", toString s.generator.timeoutSecs)]
        ++ Toml.writeTable "listing" [("ignore", Toml.writeStrings s.listing.ignore)] := by
    rw [sections]
    simp [Section.text, listMember, textMember, numberMember, String.append_assoc]
  rw [toText, htop, hsections]
  simp only [String.append_assoc]

/-! ## Every setting is read -/

variable {key : String}

theorem isRead_flagMember (hkey : Toml.IsKey key) (b : Bool) : (flagMember key b).IsRead :=
  ⟨hkey, Toml.isWritten_writeBoolean b⟩

theorem isRead_textMember (hkey : Toml.IsKey key) (text : String) :
    (textMember key text).IsRead := ⟨hkey, Toml.isWritten_quote text⟩

theorem isRead_listMember (hkey : Toml.IsKey key) (items : List String) :
    (listMember key items).IsRead := ⟨hkey, Toml.isWritten_writeStrings items⟩

/-- The reader takes larger numbers than settings can have. -/
theorem isRead_numberMember (hkey : Toml.IsKey key) {n : Nat} (hn : n < wordBound) :
    (numberMember key n).IsRead :=
  ⟨hkey, Toml.isWritten_toString (hn.trans (by decide))⟩

theorem isRead_of_mem_members (hs : s.IsSized) : ∀ m ∈ s.members, m.IsRead := by
  have hattempts : s.maxRepairAttempts < wordBound := hs.maxRepairAttempts.trans (by decide)
  rw [members, List.forall_mem_append]
  constructor
  · simp only [List.forall_mem_cons]
    exact ⟨isRead_flagMember (by decide) _, isRead_flagMember (by decide) _,
      isRead_flagMember (by decide) _, isRead_flagMember (by decide) _,
      isRead_flagMember (by decide) _, isRead_numberMember (by decide) hattempts,
      isRead_numberMember (by decide) hs.outputLimit, List.forall_mem_nil _⟩
  · intro m hm
    obtain ⟨n, hn, rfl⟩ := by simpa using hm
    exact isRead_numberMember (by decide) (hs.shellTimeoutSecs n hn)

theorem isRead_pair {name : String} (hname : Toml.IsKey name) {m m' : Member} (hm : m.IsRead)
    (hm' : m'.IsRead) (hne : m.key ≠ m'.key) : (⟨name, [m, m']⟩ : Section).IsRead :=
  ⟨hname, by simp [hm, hm'], by simp [hne]⟩

theorem isRead_of_mem_sections (hs : s.IsSized) : ∀ x ∈ s.sections, x.IsRead := by
  simp only [sections, List.forall_mem_cons]
  refine ⟨?_, ?_, ?_, ?_, List.forall_mem_nil _⟩
  · exact isRead_pair (by decide) (isRead_textMember (by decide) _)
      (isRead_listMember (by decide) _) (by simp [textMember, listMember])
  · exact isRead_pair (by decide) (isRead_listMember (by decide) _)
      (isRead_textMember (by decide) _) (by simp [textMember, listMember])
  · exact isRead_pair (by decide) (isRead_listMember (by decide) _)
      (isRead_numberMember (by decide) hs.generatorTimeoutSecs)
      (by simp [numberMember, listMember])
  · exact ⟨(by decide : Toml.IsKey "listing"),
      by simpa using isRead_listMember (by decide) s.listing.ignore, by simp⟩

theorem nodup_keys (s : Settings) :
    (s.members.map Member.key ++ s.sections.map Section.name).Nodup := by
  rw [members, sections]
  cases s.shellTimeoutSecs <;> simp [flagMember, numberMember]

theorem strings?_array (items : List String) :
    Toml.strings? (.array (items.map .string)) = some items := by
  have hread : Toml.string? ∘ Toml.string = fun text ↦ (pure (id text) : Option String) := rfl
  rw [Toml.strings?, List.mapM_map, hread, List.mapM_pure, List.map_id]
  rfl

theorem natBelow?_integer {bound n : Nat} (h : n < bound) :
    Toml.natBelow? bound (.integer n) = some n := if_pos h

theorem ofMembers_entries (hs : s.IsSized) :
    ofMembers (s.members.map Member.entry ++ s.sections.map Section.entry) = some s := by
  have hattempts := natBelow?_integer hs.maxRepairAttempts
  have houtput := natBelow?_integer hs.outputLimit
  have hgenerator := natBelow?_integer hs.generatorTimeoutSecs
  have hshell : ∀ n ∈ s.shellTimeoutSecs, Toml.natBelow? wordBound (.integer n) = some n :=
    fun n hn ↦ natBelow?_integer (hs.shellTimeoutSecs n hn)
  obtain ⟨_, _, _, _, _, _, _, timeout, _, _, _, _⟩ := s
  -- The time limit has a member only if it is set.
  cases timeout <;> simp [ofMembers, members, sections, Member.entry, Section.entry, Toml.member?,
    readOr, flagMember, numberMember, textMember, listMember, Toml.boolean?, hattempts, houtput,
    hgenerator, readShell, readInstall, readGenerator, readListing, values?, Toml.string?,
    strings?_array]
  rw [hshell _ rfl]
  rfl

/-- **Settings are read back** from the text that is written for them. -/
theorem ofText?_toText (hs : s.IsSized) : ofText? s.toText = some s := by
  rw [ofText?, toText_eq, Toml.read?_document (isRead_of_mem_members hs)
    (isRead_of_mem_sections hs) s.nodup_keys]
  exact ofMembers_entries hs

/-! ## What is read has numbers of the right size -/

theorem lt_of_natBelow? {bound n : Nat} {value : Toml} (h : Toml.natBelow? bound value = some n) :
    n < bound := by
  unfold Toml.natBelow? at h
  split at h
  · split at h
    · rename_i hlt
      exact Option.some.inj h ▸ hlt
    · exact absurd h (by simp)
  · exact absurd h (by simp)

theorem lt_of_readOr {bound default n : Nat} (hdefault : default < bound) {value : Option Toml}
    (h : readOr (Toml.natBelow? bound) default value = some n) : n < bound := by
  cases value with
  | none => exact Option.some.inj h ▸ hdefault
  | some value => exact lt_of_natBelow? h

theorem timeoutSecs_lt_of_readGenerator {value : Toml} {g : GeneratorSettings}
    (h : readGenerator value = some g) : g.timeoutSecs < wordBound := by
  rw [readGenerator] at h
  split at h
  · split at h
    · rename_i htimeout
      obtain rfl := Option.some.inj h
      exact lt_of_readOr (by decide) htimeout
    · exact absurd h (by simp)
  · exact absurd h (by simp)

theorem isSized_of_ofText? {text : String} (h : ofText? text = some s) : s.IsSized := by
  obtain ⟨members, -, h⟩ := Option.bind_eq_some_iff.mp h
  simp only [ofMembers, Option.bind_eq_bind, Option.bind_eq_some_iff] at h
  obtain ⟨dryRun, -, allowShell, -, allowInstall, -, requireTrust, -, autoRepair, -, attempts,
    hattempts, output, houtput, timeout, htimeout, shell, -, install, -, generator, hgenerator,
    listing, -, hs⟩ := h
  obtain rfl := Option.some.inj hs
  refine ⟨lt_of_readOr (by decide) hattempts, lt_of_readOr (by decide) houtput, ?_, ?_⟩
  · rintro n (rfl : timeout = some n)
    cases hmember : Toml.member? "shell_timeout_secs" members with
    | none =>
      rw [hmember] at htimeout
      exact absurd htimeout (by simp [readOr])
    | some value =>
      rw [hmember, readOr, Option.map_eq_some_iff] at htimeout
      obtain ⟨m, hm, heq⟩ := htimeout
      exact Option.some.inj heq ▸ lt_of_natBelow? hm
  · cases hmember : Toml.member? "generator" members with
    | none =>
      rw [hmember] at hgenerator
      have hdefault : (({} : Settings).generator).timeoutSecs < wordBound := by decide
      exact Option.some.inj hgenerator ▸ hdefault
    | some value =>
      rw [hmember] at hgenerator
      exact timeoutSecs_lt_of_readGenerator hgenerator

end Planbox.Settings
