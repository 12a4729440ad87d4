/-!
# Usage texts

What each command prints about itself. The program's name is a parameter.
-/

namespace TapeMachine.CommandLine.Usage

def top (program : String) : List String :=
  ["Usage:",
    s!"  {program} run   [OPTIONS] \"<code>\"        # Run Brainfuck code (args are concatenated)",
    s!"  {program} run   [OPTIONS] --file <PATH>   # Run Brainfuck code loaded from file",
    s!"  {program} debug [--file <PATH>]           # Step through a program interactively",
    s!"  {program} watch [OPTIONS] --file <PATH>   # Watch a paced run in a terminal view",
    s!"  {program}                                 # Same as \"{program} debug\"",
    "",
    s!"Run \"{program} <subcommand> --help\" for more info."]

def run (program : String) : List String :=
  ["Usage:",
    s!"  {program} run [OPTIONS] \"<code>\"",
    s!"  {program} run [OPTIONS] --file <PATH>",
    s!"  {program} run [OPTIONS] --sample <NAME>",
    "",
    "Options:",
    "  --file,  -f <PATH>     Read Brainfuck code from PATH instead of positional \"<code>\"",
    "  --sample, -s <NAME>    Run a bundled sample (hello, echo, counter)",
    "  --input, -i <TEXT>     Input bytes for `,`",
    "  --input-file <PATH>    Read input bytes from PATH",
    "  --max-steps <N>        Stop after N steps (default 1000000)",
    "  --eof <POLICY>         On end of input `,` stores: zero | minus-one | unchanged",
    "  --speed <MS>           Pace the run, MS milliseconds between ticks",
    "  --instant              Ignore --speed and run flat out",
    "  --trace, -t            Print executed steps to stderr",
    "  --dump-tape            Print the touched tape rows to stderr after the run",
    "  --help,  -h            Show this help",
    "",
    "Notes:",
    "- Non-Brainfuck characters are comments.",
    "- Without --input or --input-file, piped stdin is used as input when the program contains `,`.",
    "- Program output goes to stdout followed by a newline; everything else goes to stderr.",
    "- Ctrl+C stops a paced or traced run between steps (exit code 130).",
    "- Environment: BFVM_MAX_STEPS, BFVM_EOF, BFVM_TAPE_SIZE, BFVM_CONFIG, BFVM_LOG.",
    "",
    "Examples:",
    "- Run a file with a smaller step budget:",
    s!"    {program} run --max-steps 5000 --file ./program.bf",
    "- Echo a file through the echo sample:",
    s!"    {program} run --sample echo < input.txt"]

def debug (program : String) : List String :=
  ["Usage:",
    s!"  {program} debug [--file <PATH> | --sample <NAME>] [--input <TEXT>] [--bare|--editor]",
    s!"  {program}                                  # same as \"{program} debug\"",
    "",
    "Options:",
    "  --file,   -f <PATH>  Load Brainfuck code from PATH on startup",
    "  --sample, -s <NAME>  Load a bundled sample (hello, echo, counter)",
    "  --input,  -i <TEXT>  Input bytes for `,`",
    "  --bare               Force non-interactive bare mode",
    "  --editor             Force interactive editor mode (errors if stdin is not a TTY)",
    "  --help,   -h         Show this help",
    "",
    "Description:",
    "  Load a program, then step through it one instruction at a time while",
    "  watching the tape, or run it to the end.",
    "",
    "Meta commands (line starts with \":\")",
    "  :step [N]        Execute N steps (default 1), printing each one",
    "  :run             Run from the start to the end",
    "  :continue        Finish the current run without restarting it",
    "  :reset           Drop the run and clear the tape",
    "  :input TEXT      Input for the next run",
    "  :eof POLICY      zero | minus-one | unchanged",
    "  :max-steps N     Step budget for the next run",
    "  :tape [ROW]      Show tape rows",
    "  :format [hex|dec]  Cell display format",
    "  :state           Status, counters and the next instruction",
    "  :source          Print the loaded source",
    "  :sample [NAME]   Load a sample, or list them",
    "  :exit            Exit immediately (code 0)",
    "",
    "Notes:",
    "    - Any line that is not a meta command replaces the program source.",
    "    - Enter submits; Alt+Enter inserts a newline for multi-line programs.",
    "    - Bare mode reads a script from stdin: consecutive code lines form one",
    "      program. A script without meta commands just runs its program once.",
    "    - Mode selection:",
    "        * Flags: --bare|--editor override environment and auto-detection.",
    "        * Env: BFVM_DEBUG_MODE=bare|editor overrides auto-detection.",
    "        * Auto-detect: if stdin is a TTY, starts in interactive editor mode; otherwise, bare mode.",
    "        * Banners are suppressed if stderr is not a TTY."]

def watch (program : String) : List String :=
  ["Usage:",
    s!"  {program} watch [OPTIONS] \"<code>\"",
    s!"  {program} watch [OPTIONS] --file <PATH>",
    s!"  {program} watch [OPTIONS] --sample <NAME>",
    "",
    "Options:",
    "  --file,   -f <PATH>  Read Brainfuck code from PATH",
    "  --sample, -s <NAME>  Watch a bundled sample (hello, echo, counter)",
    "  --input,  -i <TEXT>  Input bytes for `,`",
    "  --input-file <PATH>  Read input bytes from PATH",
    "  --speed <MS>         Initial delay between ticks (default 50)",
    "  --instant            Start in instant mode",
    "  --max-steps <N>      Step budget for each run",
    "  --help,   -h         Show this help",
    "",
    "Description:",
    "  Opens a terminal view of the machine: the source with the executing",
    "  instruction highlighted, a 16-column memory grid, the output and a status bar.",
    "",
    "Keys:",
    "    - Space/r/F5 runs or pauses; s/n/F10 steps once; x resets.",
    "    - +/- change the speed, i toggles instant mode, f toggles hex/decimal cells.",
    "    - Up/Down and PageUp/PageDown scroll memory; Home follows the pointer.",
    "    - ? shows help; q, Esc or Ctrl+C quits."]

end TapeMachine.CommandLine.Usage
