import MalForms.Arguments

/-!
# Help pages

The command has a page of help, and so has each verb. The first paragraph of a page is the usage.
-/

namespace MalForms.Arguments

/-- A page of help: that of the command, or that of a verb. -/
inductive Page where
  | command
  | verb (v : Verb)
deriving DecidableEq

namespace Page

/-- What is to be typed for what the page is about. -/
def title : Page → Text
  | command => "malread"
  | verb v => .concat ["malread ", v.name]

def usageLines : Page → List Text
  | command =>
    ["usage: malread [-h] [-c CODE] [-i] [--pretty] [--config FILE] [--log FILE]",
     "               [-v]",
     "               <command> ..."]
  | verb .repl => ["usage: malread repl [-h]"]
  | verb v => [.concat ["usage: malread ", v.name, " [-h] FILE [FILE ...]"]]

def bodyLines : Page → List Text
  | command =>
    ["",
     "malread - read mal source and print its forms",
     "",
     "positional arguments:",
     "  <command>",
     "    repl                Start the interactive REPL",
     "    read                Read files and print their forms",
     "    check               Check that files read without errors",
     "",
     "options:",
     "  -h, --help            show this help message and exit",
     "  -c CODE, --command CODE",
     "                        Read code directly and print its forms",
     "  -i, --interactive     Start REPL after reading a file or command",
     "  --pretty              Break long forms over several lines",
     "  --config FILE         Config file (default: nearest .malrc)",
     "  --log FILE            Log file for debugging the reader",
     "  -v, --verbose         Log reader activity at debug level",
     "",
     "examples:",
     "  malread                       Start interactive REPL",
     "  malread repl                  Start interactive REPL (explicit)",
     "  malread read core.mal         Print every form in core.mal",
     "  malread check *.mal           Check files for syntax errors",
     "  malread a.mal b.mal           Same as `malread read a.mal b.mal`",
     "  malread -c \"(+ 1 2 3)\"        Read code directly",
     "        "]
  | verb .repl => ["", "options:", "  -h, --help  show this help message and exit"]
  | verb _ => ["", "positional arguments:", "  FILE", "", "options:", "  -h, --help  show this help message and exit"]

def usage (p : Page) : Text := p.usageLines.flatMap Text.line

def help (p : Page) : Text := (p.usageLines ++ p.bodyLines).flatMap Text.line

/-- The report of a fault: the usage and the fault. -/
def report (p : Page) (message : Text) : Text :=
  .concat [p.usage, p.title, ": error: ", message.line]

end Page

end MalForms.Arguments
