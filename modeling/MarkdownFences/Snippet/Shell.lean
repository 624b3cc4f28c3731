import MarkdownFences.Snippet.Data

namespace MarkdownFences.Snippet

open Text Text.Pattern

def heredoc : Pattern :=
  sequence [literal "<<", optional (char '-'), blanks, optional (anyOf "'\""),
    foldedWords ["eof", "eot"], wordEdge]

def shebang : Pattern :=
  sequence [literal "#!/", optional (literal "usr/"), literal "bin/"]

def commandSubstitution : Pattern := seq (literal "$(") (notAhead (anyOf "'\""))

/-- An expansion with a backtick somewhere before it, taken for part of a template literal. -/
def templateInterpolation : Pattern :=
  sequence [char tick, many (one (· != tick)), literal "$\x7b"]

def lineContinuation : Pattern := sequence [anyOf " \t", char '\\', lineEnd]

def environmentExport : Pattern :=
  sequence [lineStart, literal "export", blanks1, one fun c => isAsciiUpper c || c == '_',
    many (one fun c => isAsciiUpper c || isAsciiDigit c || c == '_'), char '=']

def commands : List String :=
  ["gh", "git", "npm", "pnpm", "npx", "yarn", "curl", "wget", "cd", "ls", "mkdir", "echo", "cat",
    "grep", "sed", "awk", "find", "chmod", "chown", "sudo", "docker", "kubectl"]

def leadingCommand : Pattern :=
  seq (alt (char '$') (words (commands ++ ["node", "python"]))) blank

def subcommands : List String :=
  ["issue", "list", "create", "add", "install", "run", "exec", "build", "test", "syncpack",
    "outdated", "audit", "check", "fix"]

def subcommand : Pattern :=
  sequence [lineStart, foldedWords commands, blanks1, foldedWords subcommands, wordEdge]

def scriptWords : List String :=
  ["import", "export", "const", "let", "var", "function", "class", "return", "if", "for", "while",
    "type", "interface"]

def indentation : Pattern := many1 (anyOf " \t")

def flaggedCommand : Pattern :=
  sequence [lineStart, notAhead (seq (words scriptWords) wordEdge), one isAsciiLower,
    many (one fun c => isWordChar c || c == '.' || c == '-'),
    many (sequence [indentation, one fun c => !isBlank c && c != '-', many (one (!isBlank ·))]),
    indentation, char '-', optional (char '-'), one isAsciiLetter,
    many (one fun c => isWordChar c || c == '-')]

/-- An expansion of a shell variable, unless some backtick before one makes it a template. -/
def hasExpansion (t : Text) : Bool :=
  Text.occursIn "$\x7b".toList t && !templateInterpolation.occursIn t

/-- Syntax that hardly occurs but in shell scripts and commands. -/
def hasShellSigns (t : Text) : Except Json.TooDeep Bool := do
  if ← isJson t then return false
  return heredoc.occursIn t || shebang.occursIn t || commandSubstitution.occursIn t ||
    hasExpansion t || lineContinuation.occursIn t || environmentExport.occursIn t ||
    leadingCommand.startsText (firstLine t) || subcommand.occursIn t || flaggedCommand.occursIn t

end MarkdownFences.Snippet
