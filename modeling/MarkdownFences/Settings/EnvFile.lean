import MarkdownFences.Text.Blank
import MarkdownFences.Text.Case

namespace MarkdownFences.Settings.EnvFile

/-- A line of an environment file: a name, and a value unless the name stands alone. -/
abbrev Binding := Text × Option Text

def isGap (c : Char) : Bool := Text.isBlank c && c != '\n' && c != '\r'

def skipGap (t : Text) : Text := t.dropWhile isGap

def isLineEnd (c : Char) : Bool := c == '\n' || c == '\r'

def nextLine (t : Text) : Text := (t.dropWhile fun c => !isLineEnd c).drop 1

/-- A quoted text up to its closing quote. A backslash and the character after it belong
together, so a quote after a backslash closes nothing. -/
def quotedRest (quote : Char) : Text → Option (Text × Text)
  | [] => none
  | '\\' :: c :: r => (quotedRest quote r).map fun x => ('\\' :: c :: x.1, x.2)
  | c :: r => if c = quote then some ([], r) else (quotedRest quote r).map fun x => (c :: x.1, x.2)

def escapes : List (Char × Char) :=
  [('\\', '\\'), ('\x27', '\x27'), ('"', '"'), ('a', '\x07'), ('b', '\x08'), ('f', '\x0c'),
    ('n', '\n'), ('r', '\r'), ('t', '\t'), ('v', '\x0b')]

def unescape (known : List (Char × Char)) : Text → Text
  | [] => []
  | '\\' :: c :: r =>
    match known.lookup c with
    | some d => d :: unescape known r
    | none => '\\' :: unescape known (c :: r)
  | c :: r => c :: unescape known r

/-- An unquoted value ends at white space before a number sign. -/
def withoutComment : Text → Text
  | [] => []
  | c :: r =>
    if Text.isBlank c && (Text.trimLeft r).head? = some '#' then []
    else c :: withoutComment r

def unquoted (t : Text) : Text × Text :=
  let line := t.takeWhile fun c => !isLineEnd c
  (Text.trim (withoutComment line), t.drop line.length)

def value (t : Text) : Except Text (Text × Text) :=
  match skipGap t with
  | [] => .ok ([], [])
  | c :: r =>
    let closed (known : List (Char × Char)) : Except Text (Text × Text) :=
      match quotedRest c r with
      | some x => .ok (unescape known x.1, x.2)
      | none => .error (c :: r)
    if c = '\x27' then closed (escapes.take 2)
    else if c = '"' then closed escapes
    else .ok (unquoted t)

def name : Text → Except Text (Option Text × Text)
  | [] => .error []
  | c :: r =>
    if c = '#' then .ok (none, c :: r)
    else if c = '\x27' then
      let n := r.takeWhile (· != c)
      if n.isEmpty || (r.drop n.length).isEmpty then .error (c :: r)
      else .ok (some n, r.drop (n.length + 1))
    else
      let n := (c :: r).takeWhile fun c => !(c == '=' || c == '#' || Text.isBlank c)
      if n.isEmpty then .error (c :: r) else .ok (some n, (c :: r).drop n.length)

def skipExport (t : Text) : Text :=
  let r := t.drop 6
  if "export".toList.isPrefixOf t && (r.head?.map isGap).getD false then skipGap r else t

def lineRest (t : Text) : Except Text Text :=
  let t := skipGap t
  let t := if t.head? = some '#' then t.dropWhile fun c => !isLineEnd c else t
  match t with
  | [] => .ok []
  | '\r' :: '\n' :: r => .ok r
  | c :: r => if isLineEnd c then .ok r else .error (c :: r)

/-- One binding from the front of a text that does not start with white space, or the place that
keeps it from being one. -/
def binding (t : Text) : Except Text (Option Binding × Text) := do
  let (n, r) ← name (skipExport t)
  let r := skipGap r
  let (v, r) ← match r with
    | '=' :: r => (value r).map fun x => (some x.1, x.2)
    | r => .ok (none, r)
  let r ← lineRest r
  return (n.map fun n => (n, v), r)

/-- The bindings of a file in order. Where there is no binding the line is passed over. -/
def bindingsFor : Nat → Text → List Binding
  | 0, _ => []
  | fuel + 1, t =>
    match Text.trimLeft t with
    | [] => []
    | t =>
      match binding t with
      | .ok (some b, r) => b :: bindingsFor fuel r
      | .ok (none, r) => bindingsFor fuel r
      | .error r => bindingsFor fuel (nextLine r)

def bindings (t : Text) : List Binding := bindingsFor (t.length + 1) t

def reference (t : Text) : Option (Text × Text × Text) :=
  let n := t.takeWhile fun c => !(c == '\x7d' || c == ':')
  match t.drop n.length with
  | '\x7d' :: r => some (n, [], r)
  | ':' :: '-' :: r =>
    let d := r.takeWhile (· != '\x7d')
    match r.drop d.length with
    | '\x7d' :: r => some (n, d, r)
    | _ => none
  | _ => none

def references : Text → List Text
  | [] => []
  | '$' :: '\x7b' :: r => ((reference r).map (·.1)).toList ++ references ('\x7b' :: r)
  | _ :: r => references r

/-- A value with its references replaced, or nothing where one of them leads to what is no text.
Names without a value give their default. -/
def expandFor (look : Text → Option (Option Text)) : Nat → Text → Option Text
  | 0, t => some t
  | _ + 1, [] => some []
  | fuel + 1, '$' :: '\x7b' :: r =>
    match reference r with
    | some (n, d, rest) => do return (← (look n).getD (some d)) ++ (← expandFor look fuel rest)
    | none => (expandFor look fuel ('\x7b' :: r)).map ('$' :: ·)
  | fuel + 1, c :: r => (expandFor look fuel r).map (c :: ·)

/-- A binding with its references replaced. A name that stands alone has no value, and a value may
be no text. -/
abbrev Expanded := Text × Option (Option Text)

/-- Each binding can refer to those before it and, failing that, to the environment. A name
that stands alone has the empty value for references. -/
def expandAll (env : List (Text × Option Text)) : List Expanded → List Binding → List Expanded
  | done, [] => done
  | done, (n, v) :: rest =>
    let look (m : Text) : Option (Option Text) :=
      match done.reverse.lookup m with
      | some x => some (x.getD (some []))
      | none => env.reverse.lookup m
    expandAll env (done ++ [(n, v.map fun v => expandFor look (v.length + 1) v)]) rest

def withoutMark : Text → Text
  | '\uFEFF' :: r => r
  | t => t

def read (env : List (Text × Option Text)) (t : Text) : List Expanded :=
  expandAll env [] (bindings (withoutMark t))

/-- The value of a name that does not depend on case. A name that is bound again keeps its place
but takes the new value, and of names that differ in case the last one decides. -/
def lookup (name : Text) (bs : List Expanded) : Option (Option Text) :=
  let names := (bs.map (·.1)).eraseDups
  (names.reverse.find? fun n => Text.lower n == name).bind fun n => (bs.reverse.lookup n).join

end MarkdownFences.Settings.EnvFile
