import Planbox.Settings.Basic
import Planbox.Toml.Reader
import Planbox.Toml.Writer

/-!
# Settings as text

The settings are written as a TOML document that names every one of them. When such a document is
read, settings that it does not mention keep their defaults and members that are no settings are
passed over; a setting with a value of the wrong kind makes the document unusable. A section may
also be given as the list of its values, in the order of its settings.
-/

namespace Planbox.Settings

def readOr {α : Type} (read : Toml → Option α) (default : α) : Option Toml → Option α
  | none => some default
  | some value => read value

/-- The values of settings, by their names or by their order. -/
def values? (names : List String) : Toml → Option (List (Option Toml))
  | .table _ members => some (names.map (Toml.member? · members))
  | .array items => some (names.zipIdx.map fun (_, i) ↦ items[i]?)
  | .tables items => some (names.zipIdx.map fun (_, i) ↦ items[i]?.map (.table .header ·))
  | _ => none

/-- Numbers have at most 64 bits. -/
def wordBound : Nat := Nat.pow 2 64

/-- Counts of attempts have at most 32 bits. -/
def attemptBound : Nat := Nat.pow 2 32

/-- Reads the section on command lines. -/
def readShell (value : Toml) : Option ShellSettings :=
  let d : ShellSettings := {}
  match values? ["program", "args"] value with
  | some [program, args] =>
    match readOr Toml.string? d.program program, readOr Toml.strings? d.args args with
    | some program, some args => some ⟨program, args⟩
    | _, _ => none
  | _ => none

def readInstall (value : Toml) : Option InstallSettings :=
  let d : InstallSettings := {}
  match values? ["command", "dev_flag"] value with
  | some [command, devFlag] =>
    match readOr Toml.strings? d.command command, readOr Toml.string? d.devFlag devFlag with
    | some command, some devFlag => some ⟨command, devFlag⟩
    | _, _ => none
  | _ => none

def readGenerator (value : Toml) : Option GeneratorSettings :=
  let d : GeneratorSettings := {}
  match values? ["command", "timeout_secs"] value with
  | some [command, timeout] =>
    match readOr Toml.strings? d.command command,
        readOr (Toml.natBelow? wordBound) d.timeoutSecs timeout with
    | some command, some timeout => some ⟨command, timeout⟩
    | _, _ => none
  | _ => none

def readListing (value : Toml) : Option ListingSettings :=
  let d : ListingSettings := {}
  match values? ["ignore"] value with
  | some [ignore] => (readOr Toml.strings? d.ignore ignore).map (⟨·⟩)
  | _ => none

def ofMembers (members : Toml.Members) : Option Settings := do
  let d : Settings := {}
  let flag name default := readOr Toml.boolean? default (Toml.member? name members)
  let number bound name default :=
    readOr (Toml.natBelow? bound) default (Toml.member? name members)
  let dryRun ← flag "dry_run" d.dryRun
  let allowShell ← flag "allow_shell" d.allowShell
  let allowInstall ← flag "allow_install" d.allowInstall
  let requireTrust ← flag "require_trusted_workspace" d.requireTrust
  let autoRepair ← flag "auto_repair" d.autoRepair
  let maxRepairAttempts ← number attemptBound "max_repair_attempts" d.maxRepairAttempts
  let outputLimit ← number wordBound "output_limit_bytes" d.outputLimit
  let shellTimeoutSecs ←
    readOr (fun v ↦ (Toml.natBelow? wordBound v).map some) d.shellTimeoutSecs
      (Toml.member? "shell_timeout_secs" members)
  let shell ← readOr readShell d.shell (Toml.member? "shell" members)
  let install ← readOr readInstall d.install (Toml.member? "install" members)
  let generator ← readOr readGenerator d.generator (Toml.member? "generator" members)
  let listing ← readOr readListing d.listing (Toml.member? "listing" members)
  return { dryRun, allowShell, allowInstall, requireTrust, autoRepair, maxRepairAttempts,
           outputLimit, shellTimeoutSecs, shell, install, generator, listing }

def ofText? (text : String) : Option Settings := (Toml.read? text).bind ofMembers

/-- The settings outside all sections, written. A time limit that is not set is left out. -/
def topMembers (s : Settings) : List (String × String) :=
  [("dry_run", Toml.writeBoolean s.dryRun), ("allow_shell", Toml.writeBoolean s.allowShell),
    ("allow_install", Toml.writeBoolean s.allowInstall),
    ("require_trusted_workspace", Toml.writeBoolean s.requireTrust),
    ("auto_repair", Toml.writeBoolean s.autoRepair),
    ("max_repair_attempts", toString s.maxRepairAttempts),
    ("output_limit_bytes", toString s.outputLimit)]
  ++ (s.shellTimeoutSecs.map fun n ↦ ("shell_timeout_secs", toString n)).toList

def toText (s : Settings) : String :=
  String.join (s.topMembers.map Toml.memberLine)
    ++ Toml.writeTable "shell"
      [("program", Toml.quote s.shell.program), ("args", Toml.writeStrings s.shell.args)]
    ++ Toml.writeTable "install"
      [("command", Toml.writeStrings s.install.command),
        ("dev_flag", Toml.quote s.install.devFlag)]
    ++ Toml.writeTable "generator"
      [("command", Toml.writeStrings s.generator.command),
        ("timeout_secs", toString s.generator.timeoutSecs)]
    ++ Toml.writeTable "listing" [("ignore", Toml.writeStrings s.listing.ignore)]
    ++ "\n"

end Planbox.Settings
