/-!
# Texts of the command line

## Main definitions

* `LogicGraph.Command.usageLines` — how the command is called.
* `LogicGraph.Command.usage`, `LogicGraph.Command.help` — the short and the long text about it.
-/

namespace LogicGraph.Command

/-- The name of the command. -/
def commandName : String := "compile_from_json"

/-- How the command is called. -/
def usageLines : List String :=
  ["usage: compile_from_json [-h] [--target \x7bevent,simulation\x7d] [--out DIR]",
   "                         [--print] [--strict]",
   "                         graph.json"]

/-- What the arguments of the command mean. -/
def optionLines : List String :=
  ["",
   "Compile a NeuroFlow graph JSON file to standalone Python.",
   "",
   "positional arguments:",
   "  graph.json            Path to the graph JSON file to compile.",
   "",
   "options:",
   "  -h, --help            show this help message and exit",
   "  --target \x7bevent,simulation\x7d",
   "                        Output target. event (default) = UI handlers.",
   "                        simulation = RL environment.",
   "  --out DIR             Output directory for the compiled .py file (default:",
   "                        compiled/).",
   "  --print               Print generated source to stdout instead of writing a",
   "                        file.",
   "  --strict              Treat unknown node types and invalid ports as errors",
   "                        rather than warnings.",
   ""]

/-- What the command does, at length. -/
def manualLines : List String :=
  ["compile_from_json.py — CLI for the NeuroFlow graph compiler",
   "============================================================",
   "Compiles a serialised editor graph JSON file into a standalone Python module.",
   "",
   "Usage",
   "-----",
   "    python -m neuroflow.compile_from_json <graph.json> [options]",
   "",
   "Options",
   "-------",
   "    --target  \x7bevent,simulation\x7d  Output target (default: event)",
   "                                    event      — NeuroFlowEnv with on_<name>_trigger() handlers",
   "                                    simulation — NeuroFlowSimEnv with reset() / step(action)",
   "    --out     <dir>               Output directory (default: compiled/)",
   "    --print                       Print the generated source to stdout instead of writing a file",
   "    --strict                      Treat unknown node types and bad ports as errors",
   "",
   "Examples",
   "--------",
   "    # Compile the bundled reach-target graph to a simulation environment:",
   "    python -m neuroflow.compile_from_json neuroflow/graphs/reach_target.json --target simulation",
   "",
   "    # Print the event handlers of the menu demo without writing a file:",
   "    python -m neuroflow.compile_from_json neuroflow/graphs/menu_events.json --print"]

/-- Lines as one text, each with a line end. -/
def linesText (ls : List String) : String :=
  String.join (ls.map (· ++ "\n"))

/-- The short text about the command. -/
def usage : String :=
  linesText usageLines

/-- The long text about the command. -/
def help : String :=
  linesText (usageLines ++ optionLines ++ manualLines)

end LogicGraph.Command
