import ScopeGraph.CommandLine.Commands

/-!
# What the program prints
-/
set_option autoImplicit false

namespace ScopeGraph.CommandLine

def usageText : String :=
  Answer.lines
    ["Extract a JavaScript file's scopes and call chains into a property graph",
     "",
     "Usage: callscope [OPTIONS] <COMMAND>",
     "",
     "Commands:",
     "  init   Write a default callscope.toml",
     "  run    Extract a file and merge it into the graph",
     "  scope  Print the scope tree of a file",
     "  plan   Print the graph operations a run would apply",
     "  stats  Show graph database statistics",
     "  help   Print this message",
     "",
     "Options:",
     "  -v, --verbose          Enable verbose logging",
     "  -c, --config <CONFIG>  Path to the config file",
     "  -h, --help             Print help",
     "  -V, --version          Print version"]

def Reaction.printed : Reaction → Answer
  | usage code => if code = 0 then ⟨0, usageText, ""⟩ else ⟨code, "", usageText⟩
  | misconfigured cause => ⟨1, "", Answer.lines [s!"Error: {cause.message}"]⟩
  | answer given => given

end ScopeGraph.CommandLine
