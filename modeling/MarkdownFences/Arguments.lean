import MarkdownFences.Text.Digit
import MarkdownFences.Text.Quoted

namespace MarkdownFences

namespace Arguments

def mark : Text := ['-', '-']

inductive Wish where
  | unsaid
  | nothing
  | model (name : Text)
  deriving DecidableEq, Repr

def Wish.ofValue (t : Text) : Wish := if t = mark then nothing else model t

def Wish.name? : Wish → Option Text
  | model name => some name
  | _ => none

end Arguments

structure Arguments where
  paths : List Text
  version : Bool
  fix : Bool
  skipService : Bool
  model : Arguments.Wish
  noCache : Bool
  verbose : Bool
  deriving DecidableEq, Repr

namespace Arguments

def none : Arguments := ⟨[], false, false, false, .unsaid, false, false⟩

inductive Switch where
  | help
  | version
  | fix
  | skipService
  | model
  | noCache
  | verbose
  deriving DecidableEq, Repr

namespace Switch

def spellings : List (String × Switch) :=
  [("-h", help), ("--help", help), ("--version", version), ("--fix", fix), ("-f", fix),
    ("--skip-ollama", skipService), ("-s", skipService), ("--model", model), ("-m", model),
    ("--no-cache", noCache), ("--verbose", verbose), ("-v", verbose)]

def title (s : Switch) : String :=
  "/".intercalate ((spellings.filter fun x => x.2 == s).map (·.1))

def takesValue (s : Switch) : Bool := s == model

def ofSpelling? (t : Text) : Option Switch :=
  (spellings.find? fun x => x.1.toList == t).map (·.2)

end Switch

inductive UsageError where
  | ambiguous (argument : Text) (spellings : List String)
  | superfluousValue (switch : Switch) (value : Text)
  | missingValue (switch : Switch)
  | unrecognized (arguments : List Text)
  deriving DecidableEq, Repr

def UsageError.message : UsageError → Text
  | .ambiguous argument spellings =>
    "ambiguous option: ".toList ++ argument ++
      (" could match " ++ ", ".intercalate spellings).toList
  | .superfluousValue switch value =>
    s!"argument {switch.title}: ignored explicit argument ".toList ++ Text.quoted value
  | .missingValue switch => s!"argument {switch.title}: expected one argument".toList
  | .unrecognized arguments => "unrecognized arguments: ".toList ++ Text.joined ' ' arguments

inductive Exit where
  | help
  | wrong (e : UsageError)
  deriving DecidableEq, Repr

/-- A switch as it is given: which one, whether by one letter, and the value joined to it. -/
structure Given where
  switch : Switch
  short : Bool
  value : Option Text

inductive Token where
  | word (t : Text)
  | mark
  | given (g : Given)
  | unknown (t : Text)

def isShort (spelling : Text) : Bool := (spelling.drop 1).head? != some '-'

def splitValue (t : Text) : Text × Option Text :=
  let before := t.takeWhile (· != '=')
  (before, if before.length = t.length then .none else some (t.drop (before.length + 1)))

def isNegativeNumber (t : Text) : Bool :=
  let t := if t.getLast? = some '\n' then t.dropLast else t
  match t with
  | '-' :: r =>
    let whole := r.takeWhile Text.isDigit
    match r.drop whole.length with
    | [] => !whole.isEmpty
    | c :: ds => c == '.' && !ds.isEmpty && ds.all Text.isDigit
  | _ => false

/-- The spellings that an argument may stand for: long ones that it begins, or the short one
that it begins with. -/
def candidates (t : Text) : List (String × Given) :=
  if isShort t then
    (Switch.spellings.filter fun x => x.1.toList == t.take 2).map fun x =>
      (x.1, ⟨x.2, true, some (t.drop 2)⟩)
  else
    let (start, value) := splitValue t
    (Switch.spellings.filter fun x => start.isPrefixOf x.1.toList).map fun x =>
      (x.1, ⟨x.2, false, value⟩)

def token (t : Text) : Except UsageError Token :=
  if t.head? != some '-' || t.length = 1 then .ok (.word t)
  else
    match Switch.ofSpelling? t with
    | some s => .ok (.given ⟨s, isShort t, .none⟩)
    | .none =>
      let (start, value) := splitValue t
      match value, Switch.ofSpelling? start with
      | some v, some s => .ok (.given ⟨s, isShort start, some v⟩)
      | _, _ =>
        match candidates t with
        | [c] => .ok (.given c.2)
        | c :: d :: cs => .error (.ambiguous t ((c :: d :: cs).map (·.1)))
        | [] =>
          if isNegativeNumber t || t.contains ' ' then .ok (.word t) else .ok (.unknown t)

def tokens : List Text → Except UsageError (List Token)
  | [] => .ok []
  | t :: ts =>
    if t = mark then .ok (.mark :: ts.map .word)
    else do
      let k ← token t
      let ks ← tokens ts
      return k :: ks

/-- The switches that one argument gives, the last of them with a value joined to it or not.
Letters after a short switch without a value are further switches. -/
def cluster (switch : Switch) (short : Bool) :
    Option Text → Except UsageError (List (Switch × Option Text))
  | .none => .ok [(switch, .none)]
  | some [] =>
    if switch.takesValue then .ok [(switch, some [])] else .error (.superfluousValue switch [])
  | some (c :: r) =>
    if switch.takesValue then .ok [(switch, some (c :: r))]
    else if short then
      match Switch.ofSpelling? ['-', c] with
      | .none => .error (.superfluousValue switch (c :: r))
      | some next =>
        match r with
        | [] => .ok [(switch, .none), (next, .none)]
        | d :: r => (cluster next true (some (d :: r))).map fun l => (switch, .none) :: l
    else .error (.superfluousValue switch (c :: r))

def apply (a : Arguments) (switch : Switch) (value : Option Text) : Except Exit Arguments :=
  match switch with
  | .help => .error .help
  | .version => .ok { a with version := true }
  | .fix => .ok { a with fix := true }
  | .skipService => .ok { a with skipService := true }
  | .model => .ok { a with model := (value.map Wish.ofValue).getD .unsaid }
  | .noCache => .ok { a with noCache := true }
  | .verbose => .ok { a with verbose := true }

def Token.isPlain : Token → Bool
  | .word _ | .mark => true
  | _ => false

def Token.text : Token → Text
  | .word t => t
  | .mark => Arguments.mark
  | .given _ => []
  | .unknown t => t

def plainWords (ts : List Token) : List Text :=
  (ts.map Token.text).erase mark

structure Progress where
  arguments : Arguments
  taken : Bool
  extra : List Text

/-- The first row of plain arguments are the paths. Later ones are left over. -/
def Progress.plain (p : Progress) (ts : List Token) : Progress :=
  if p.taken then { p with extra := p.extra ++ ts.map Token.text }
  else { p with arguments := { p.arguments with paths := plainWords ts }, taken := true }

/-- Carries out the switches of one argument. A value that is not joined to the last of them is
the word after it. The number says how many further arguments are taken. -/
def Progress.switches (p : Progress) (g : Given) (rest : List Token) :
    Except Exit (Progress × Nat) := do
  let l ← (cluster g.switch g.short g.value).mapError .wrong
  let (l, n) ← match l.getLast? with
    | some (s, .none) =>
      if s.takesValue then
        match rest with
        | .word t :: _ => pure (l.dropLast ++ [(s, some t)], 1)
        | _ => throw (.wrong (.missingValue s))
      else pure (l, 0)
    | _ => pure (l, 0)
  let a ← l.foldlM (fun a x => apply a x.1 x.2) p.arguments
  return ({ p with arguments := a }, n)

def consume (p : Progress) : List Token → Except Exit Progress
  | [] => .ok p
  | .given g :: rest =>
    match p.switches g rest with
    | .error e => .error e
    | .ok (p, n) => consume p (rest.drop n)
  | .unknown t :: rest => consume { p with extra := p.extra ++ [t] } rest
  | t :: rest =>
    consume (p.plain (t :: rest.takeWhile Token.isPlain)) (rest.dropWhile Token.isPlain)
termination_by ts => ts.length
decreasing_by
  · simp only [List.length_drop, List.length_cons]
    omega
  · exact Nat.lt_succ_self _
  · have := (List.dropWhile_sublist Token.isPlain (l := rest)).length_le
    simp only [List.length_cons]
    omega

/-- What the arguments of the program ask for. -/
def parse (ts : List Text) : Except Exit Arguments := do
  let ks ← (tokens ts).mapError .wrong
  let p ← consume ⟨none, false, []⟩ ks
  if p.extra.isEmpty then return p.arguments else throw (.wrong (.unrecognized p.extra))

def usage : String := "usage: fencecheck [-h] [--version] [--fix] [--skip-ollama] [--model MODEL]
                  [--no-cache] [--verbose]
                  [paths ...]
"

def help : String := usage ++ "
Validate and fix language tags on fenced code blocks in markdown files.

positional arguments:
  paths                 Markdown files to check (default: every *.md tracked
                        by git)

options:
  -h, --help            show this help message and exit
  --version             Print version and exit
  --fix, -f             Rewrite missing and incorrect language tags in place
  --skip-ollama, -s     Use heuristic detection only
  --model MODEL, -m MODEL
                        Classifier model (default: OLLAMA_MODEL or
                        codellama:7b)
  --no-cache            Ignore and do not update the validation cache
  --verbose, -v         Enable debug logging
"

def Exit.code : Exit → Nat
  | .help => 0
  | .wrong _ => 2

def Exit.output : Exit → Text
  | .help => Arguments.help.toList
  | .wrong _ => []

def Exit.errors : Exit → Text
  | .help => []
  | .wrong e => usage.toList ++ "fencecheck: error: ".toList ++ e.message ++ ['\n']

end Arguments

end MarkdownFences
