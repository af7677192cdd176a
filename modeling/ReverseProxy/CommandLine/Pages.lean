import ReverseProxy.CommandLine.Arguments

/-!
# Pages that explain the program

Each page says what a command is for, how it is called, and what its options mean.
-/

namespace ReverseProxy.CommandLine

def programName : String := "droplet-proxy"

def version : String := "0.1.0"

def about : String :=
  "A hot-reloadable load-balancing reverse proxy for self-monitoring droplet backends"

def Command.about : Command → String
  | validate => "Validate configuration file"
  | init => "Initialize a new configuration file"
  | serve => "Start the proxy (default)"

def helpAbout : String := "Print this message or the help of the given subcommand(s)"

def section_ (heading : String) (lines : List String) : String :=
  heading ++ ":\n" ++ String.join (lines.map fun l => "  " ++ l ++ "\n")

/-- The options of every page; only the first page has that for the version. -/
def options (first : Bool) : String :=
  section_ "Options"
    (["-c, --config <CONFIG>  Configuration file [default: config.toml]",
      "    --json-logs        Log as JSON instead of human-readable text",
      "-h, --help             Print help"] ++
      (if first then ["-V, --version          Print version"] else []))

def padded (s : String) (width : Nat) : String :=
  s ++ String.ofList (List.replicate (width - s.length) ' ')

/-- A line about a command. All names are as wide as the longest. -/
def commandLine (name about : String) : String := padded name 8 ++ "  " ++ about

def usage (rest : String) : String := "Usage: " ++ programName ++ rest ++ "\n"

def Page.text : Page → String
  | overview =>
    CommandLine.about ++ "\n\n" ++ usage " [OPTIONS] [COMMAND]" ++ "\n" ++
      section_ "Commands" (Command.all.map (fun c => commandLine c.name c.about) ++
        [commandLine "help" helpAbout]) ++ "\n" ++
      options true
  | command c =>
    c.about ++ "\n\n" ++ usage (" " ++ c.name ++ " [OPTIONS]") ++ "\n" ++ options false
  | help =>
    helpAbout ++ "\n\n" ++ usage " help [COMMAND]..." ++ "\n" ++
      section_ "Arguments" ["[COMMAND]...  Print help for the subcommand(s)"]
  | version => programName ++ " " ++ CommandLine.version ++ "\n"

end ReverseProxy.CommandLine
