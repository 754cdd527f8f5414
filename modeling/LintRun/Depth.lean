/-!
# Depths

How deep lists and tables may be nested. The further inside a run a value is handled, the less room
is left for its own parts: a configuration that is looked up while files are linted may be nested
less deep than one that is loaded by itself, and one that is handed to a command still less.
-/
namespace LintRun.Depth

/-- In a file that is loaded by itself. -/
def alone : Nat := 991

/-- In the project file of a check. -/
def project : Nat := 982

/-- In the configuration file that is given for all files. -/
def given : Nat := 988

/-- In the nearest configuration file. -/
def found : Nat := 987

/-- In a configuration that is written for a command by itself. -/
def written : Nat := 981

/-- In a configuration that a check writes for a command. -/
def writtenInCheck : Nat := 965

/-- In a value that a message quotes, with its innermost parts counted, too. -/
def quoted : Nat := 985

end LintRun.Depth
