/-!
# Instructions to the generator

There are two sets of instructions: one to plan from a request, one to mend what failed.
-/

namespace Planbox

/-- What the generator is asked for. -/
inductive Profile where
  | planning | repair
deriving DecidableEq, Inhabited, Repr

namespace Profile

private def planningLines : List String :=
  ["# Planning Contract",
    "",
    "You turn a developer's request into a plan of filesystem and process steps.",
    "Reply with a single JSON object and nothing else:",
    "",
    "```json",
    "\x7b",
    "  \"goal\": \"one-line description of what the plan achieves\",",
    "  \"root\": \".\",",
    "  \"steps\": [",
    "    \x7b \"action\": \"mkdir\",   \"path\": \"src\" \x7d,",
    "    \x7b \"action\": \"write\",   \"path\": \"src/index.js\", \"content\": \"...\" \x7d,",
    "    \x7b \"action\": \"append\",  \"path\": \"README.md\", \"content\": \"...\" \x7d,",
    "    \x7b \"action\": \"edit\",    \"path\": \"package.json\", \"find\": \"\\\"name\\\": "
      ++ "\\\"x\\\"\", \"replace\": \"\\\"name\\\": \\\"y\\\"\" \x7d,",
    "    \x7b \"action\": \"shell\",   \"cmd\": \"npm test\", \"cwd\": \".\" \x7d,",
    "    \x7b \"action\": \"install\", \"packages\": [\"express\"], \"dev\": false, \"cwd\": "
      ++ "\".\" \x7d",
    "  ]",
    "\x7d",
    "```",
    "",
    "Rules:",
    "- `root` is relative to the workspace; every `path` and `cwd` is relative to `root`.",
    "  Never use absolute paths or `..` to leave the root.",
    "- Only the six actions above exist. Anything else is ignored.",
    "- `write` replaces the whole file. Prefer `edit` for small changes to existing files.",
    "- `edit.find` is literal text (every occurrence is replaced) or `/pattern/flags`",
    "  for a regular expression (`g` replaces all matches, `i` ignores case).",
    "  Patterns use Rust `regex` syntax: lookaround (`(?=`, `(?!`, `(?<=`, `(?<!`)",
    "  and backreferences (`\\1`) are not supported. In the replacement, `$&` is the",
    "  whole match, `$1`, `$2`.. are groups and `$$` is a literal `$`.",
    "  Editing a file that does not exist fails.",
    "- `shell` and `install` may be disabled by the operator; do not rely on them",
    "  for steps that can be expressed as file writes.",
    "- Steps run in order. A failing step does not stop later steps."]

/-- The lines of the instructions to mend what failed. -/
private def repairLines : List String :=
  ["# Repair Contract",
    "",
    "A plan was executed and some steps failed. Produce a NEW plan that fixes only",
    "the reported failures. Reply with a single JSON object and nothing else, using",
    "the same schema as before:",
    "",
    "```json",
    "\x7b \"goal\": \"...\", \"root\": \".\", \"steps\": [ \x7b \"action\": \"...\", ... "
      ++ "\x7d ] \x7d",
    "```",
    "",
    "Rules:",
    "- Keep the plan minimal: address each listed failure and nothing else.",
    "- Steps must be safe to run again: prefer `write` over `append` when the final",
    "  content is known, and `mkdir` before writing into new directories.",
    "- If an `edit` failed because the file is missing, `write` the file instead.",
    "- If a step failed because `shell` or `install` is disabled, do not retry it;",
    "  express the change as file steps or leave it out.",
    "- Only `mkdir`, `write`, `append`, `edit`, `shell`, `install` exist. Paths stay",
    "  relative to `root` and must not leave it."]

/-- The instructions, as lines that all have an end. -/
def text : Profile → String
  | .planning => String.join (planningLines.map (· ++ "\n"))
  | .repair => String.join (repairLines.map (· ++ "\n"))

end Profile

end Planbox
