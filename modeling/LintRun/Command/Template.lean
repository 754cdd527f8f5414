import LintRun.Path

/-!
# Command templates

The words of a linter command may hold the tokens `{file}`, `{config}` and `{rules_dir}`, which are
replaced for each file. Without a rules directory a word that needs one is dropped, and so is the
option before it if the word is nothing but the token.
-/
namespace LintRun.Command

def fileToken : String := "\x7bfile\x7d"

def configToken : String := "\x7bconfig\x7d"

def rulesToken : String := "\x7brules_dir\x7d"

/-- The command unless another is given. -/
def defaultTemplate : List String :=
  ["tslint", "--format", "json", "--config", configToken, "--rules-dir", rulesToken, fileToken]

/-- Every occurrence of a text replaced, from the left; `skip` counts characters of the occurrence
read last. -/
def replaceFrom (old new : List Char) : Nat → List Char → List Char
  | _, [] => []
  | skip + 1, _ :: rest => replaceFrom old new skip rest
  | 0, c :: rest =>
    if old.isPrefixOf (c :: rest) then new ++ replaceFrom old new (old.length - 1) rest
    else c :: replaceFrom old new 0 rest

def replace (token value s : String) : String :=
  String.ofList (replaceFrom token.toList value.toList 0 s.toList)

/-- What the tokens stand for. -/
structure Places where
  file : String
  config : Path
  rules : Option Path

def needsRules (word : String) : Bool :=
  (List.range (word.length + 1)).any fun i => rulesToken.toList.isPrefixOf (word.toList.drop i)

/-- A word with its tokens replaced, one after the other. -/
def fill (p : Places) (word : String) : String :=
  let word := replace configToken p.config.toString (replace fileToken p.file word)
  match p.rules with
  | some rules => replace rulesToken rules.toString word
  | none => replace rulesToken "None" word

/-- The words so far without an option at their end. -/
def dropOption (words : List String) : List String :=
  if words.getLast?.any (·.startsWith "-") then words.dropLast else words

def addWord (p : Places) (words : List String) (word : String) : List String :=
  if needsRules word && p.rules.isNone then
    if word = rulesToken then dropOption words else words
  else words ++ [fill p word]

def expand (template : List String) (p : Places) : List String := template.foldl (addWord p) []

end LintRun.Command
