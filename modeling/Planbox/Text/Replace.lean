/-!
# Replacing a literal text

Occurrences are found from left to right and do not overlap. The empty text occurs before every
character and at the end.
-/

namespace Planbox.Text

/-- What follows `lead` in `cs`, if `cs` starts with it. -/
def afterLead? : List Char → List Char → Option (List Char)
  | [], cs => some cs
  | _ :: _, [] => none
  | l :: lead, c :: cs => if l = c then afterLead? lead cs else none

/-- Replaces a non-empty text `find`. The first argument counts the characters of an occurrence
that are still to be passed over, so the recursion is on the text. `acc` is the result so far,
reversed. -/
def replaceRun (find with_ : List Char) : Nat → List Char → List Char → List Char
  | _, [], acc => acc.reverse
  | skip + 1, _ :: cs, acc => replaceRun find with_ skip cs acc
  | 0, c :: cs, acc =>
    match afterLead? find (c :: cs) with
    | some _ => replaceRun find with_ (find.length - 1) cs (with_.reverse ++ acc)
    | none => replaceRun find with_ 0 cs (c :: acc)

/-- Puts `with_` before every character and at the end. -/
def interleave (with_ : List Char) (cs : List Char) : List Char :=
  with_ ++ cs.flatMap fun c ↦ c :: with_

/-- Replaces every occurrence of `find` in `text`. -/
def replaceAll (text find with_ : String) : String :=
  if find.toList.isEmpty then String.ofList (interleave with_.toList text.toList)
  else String.ofList (replaceRun find.toList with_.toList 0 text.toList [])

/-- Whether `find` occurs somewhere in `cs`. -/
def occursIn (find : List Char) : List Char → Bool
  | [] => find.isEmpty
  | c :: cs => (afterLead? find (c :: cs)).isSome || occursIn find cs

end Planbox.Text
