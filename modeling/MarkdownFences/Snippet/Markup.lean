import MarkdownFences.Text.Pattern

namespace MarkdownFences.Snippet

open Text Text.Pattern

def badge : Pattern :=
  sequence [literal "[![", many (noneOf "]"), literal "](", many (noneOf ")"), literal ")](",
    many (noneOf ")"), char ')']

def link : Pattern :=
  sequence [char '[', many1 (noneOf "]"), literal "](", many1 (noneOf ")"), char ')']

def heading : Pattern :=
  let sign := char '#'
  sequence [sign, optional sign, optional sign, optional sign, optional sign, optional sign,
    blanks1]

def bold : Pattern := sequence [literal "**", many1 (noneOf "*\n"), literal "**"]

def italic : Pattern :=
  sequence [holds fun x => !(x.back.map fun c => c == '*' || isWordChar c).getD false,
    char '*', one fun c => c != '*' && !isBlank c, many (noneOf "*\n"), char '*',
    notAhead (char '*')]

def bullet : Pattern := sequence [char '*', many1 (anyOf " \t"), one (!isBlank ·)]

def inlineCode : Pattern := sequence [char tick, many1 (one (· != tick)), char tick]

def brackets : Pattern := sequence [char '[', many (noneOf "]"), char ']']

def declarationStart : Pattern :=
  seq (words ["import", "export", "const", "let", "var", "function", "interface", "type", "enum"])
    wordEdge

def hasMarkdownSyntax (t : Text) : Bool :=
  !declarationStart.startsText t &&
    (badge.occursIn t || link.occursIn t || heading.startsText t || bold.occursIn t ||
      italic.occursIn t || bullet.startsText t || (inlineCode.occursIn t && brackets.occursIn t))

end MarkdownFences.Snippet
