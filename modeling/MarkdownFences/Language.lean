import MarkdownFences.Text.Basic

namespace MarkdownFences

inductive Language where
  | bash
  | json
  | javascript
  | typescript
  | markdown
  | text
  deriving DecidableEq, Repr

namespace Language

def all : List Language := [bash, json, javascript, typescript, markdown, text]

def name : Language → String
  | bash => "bash"
  | json => "json"
  | javascript => "javascript"
  | typescript => "typescript"
  | markdown => "markdown"
  | text => "text"

def tag (l : Language) : Text := l.name.toList

def ofTag? (t : Text) : Option Language := all.find? fun l => l.tag == t

theorem ofTag?_eq_some_iff {t : Text} {l : Language} : ofTag? t = some l ↔ t = l.tag := by
  constructor
  · intro h
    rw [ofTag?] at h
    have htag := List.find?_some h
    exact (beq_iff_eq.mp htag).symm
  · rintro rfl
    cases l <;> rfl

end Language

end MarkdownFences
