import MarkdownFences.Proofs.Pattern.Reads
import MarkdownFences.Proofs.Text.Trim
import MarkdownFences.Snippet.Shell
import Mathlib.Data.List.Infix

namespace MarkdownFences.Snippet

open Text Text.Pattern

/-- The signs by which content is taken for shell. -/
inductive ShellSign where
  | heredoc
  | shebang
  | substitution
  | expansion
  | continuation
  | assignment
  | command
  | subcommand
  | flag
  deriving DecidableEq

namespace ShellSign

def all : List ShellSign :=
  [heredoc, shebang, substitution, expansion, continuation, assignment, command, subcommand, flag]

theorem mem_all (s : ShellSign) : s ∈ all := by
  cases s <;> decide

def isIn (t : Text) : ShellSign → Bool
  | heredoc => Snippet.heredoc.occursIn t
  | shebang => Snippet.shebang.occursIn t
  | substitution => commandSubstitution.occursIn t
  | expansion => hasExpansion t
  | continuation => lineContinuation.occursIn t
  | assignment => environmentExport.occursIn t
  | command => leadingCommand.startsText (firstLine t)
  | subcommand => Snippet.subcommand.occursIn t
  | flag => flaggedCommand.occursIn t

end ShellSign

variable {front t : Text}

theorem hasShellSigns_eq (t : Text) : hasShellSigns t =
    (isJson t).map fun json => !json && ShellSign.all.any (ShellSign.isIn t) := by
  rw [hasShellSigns]
  cases isJson t with
  | error e => rfl
  | ok json =>
    cases json with
    | true => rfl
    | false =>
      simp [ShellSign.all, ShellSign.isIn, Except.map, bind, Except.bind, pure, Except.pure,
        Bool.or_assoc]

theorem hasShellSigns_iff : hasShellSigns t = .ok true ↔
    isJson t = .ok false ∧ ∃ s, ShellSign.isIn t s = true := by
  have hany : ShellSign.all.any (ShellSign.isIn t) = true ↔ ∃ s, ShellSign.isIn t s = true := by
    simp [ShellSign.mem_all]
  rw [hasShellSigns_eq, ← hany]
  cases isJson t with
  | error e => exact iff_of_false nofun nofun
  | ok json => cases json <;> simp [Except.map]

theorem hasShellSigns_iff_or (s : ShellSign) : hasShellSigns t = .ok true ↔
    isJson t = .ok false ∧ (s.isIn t = true ∨ ∃ s' ≠ s, s'.isIn t = true) := by
  rw [hasShellSigns_iff]
  refine and_congr_right fun _ => ⟨?_, ?_⟩
  · rintro ⟨s', hs'⟩
    by_cases h : s' = s
    · exact .inl (h ▸ hs')
    · exact .inr ⟨s', h, hs'⟩
  · rintro (hs | ⟨s', -, hs'⟩)
    · exact ⟨s, hs⟩
    · exact ⟨s', hs'⟩

def expansionMark : Text := "$\x7b".toList

/-- An expansion begins behind the front part of a text. -/
def Expands (front t : Text) : Prop := front ++ expansionMark <+: t

instance (front t : Text) : Decidable (Expands front t) :=
  inferInstanceAs (Decidable (front ++ expansionMark <+: t))

theorem occursIn_expansionMark : Text.occursIn expansionMark t = true ↔ ∃ front, Expands front t :=
  occursIn_iff

/-- Any backtick before an expansion makes it part of a template, whether it opens a literal or
closes one. -/
theorem templateInterpolation_occursIn :
    templateInterpolation.occursIn t = true ↔ ∃ front, Expands front t ∧ tick ∈ front := by
  rw [Pattern.occursIn_iff]
  constructor
  · rintro ⟨front, part, rest, rfl, hp⟩
    obtain ⟨v, w, rfl, hv, hw⟩ := reads_sequence_cons.mp hp
    obtain ⟨u, mark, rfl, -, hmark⟩ := reads_sequence_cons.mp hw
    obtain rfl := reads_char.mp hv
    obtain rfl := reads_literal.mp hmark
    exact ⟨front ++ tick :: u, ⟨rest, by simp [expansionMark]⟩, by simp⟩
  · rintro ⟨front, ⟨rest, rfl⟩, htick⟩
    -- the literal is read from the last backtick on
    obtain ⟨s, u, hfront, hu⟩ := List.eq_append_cons_of_mem (List.mem_reverse.mpr htick)
    obtain rfl : front = u.reverse ++ tick :: s.reverse := by
      rw [← List.reverse_reverse front, hfront]
      simp
    refine ⟨u.reverse, tick :: (s.reverse ++ expansionMark), rest, by simp, ?_⟩
    refine reads_sequence_cons.mpr ⟨[tick], s.reverse ++ expansionMark, rfl, reads_char.mpr rfl, ?_⟩
    refine reads_sequence_cons.mpr ⟨s.reverse, expansionMark, rfl, ?_, reads_literal.mpr rfl⟩
    refine reads_many_one.mpr fun c hc => ?_
    have hne : c ≠ tick := by
      rintro rfl
      exact hu (List.mem_reverse.mp hc)
    simpa using hne

theorem hasExpansion_iff : hasExpansion t = true ↔
    (∃ front, Expands front t) ∧ ∀ front, Expands front t → tick ∉ front := by
  have htemplate : templateInterpolation.occursIn t = false ↔
      ∀ front, Expands front t → tick ∉ front := by
    rw [← Bool.not_eq_true, templateInterpolation_occursIn]
    simp
  rw [hasExpansion, Bool.and_eq_true, Bool.not_eq_true', htemplate, ← expansionMark,
    occursIn_expansionMark]

/-- Content with an expansion, wherever it stands, is taken for shell exactly if it is no JSON and
either no backtick stands before any expansion in it or there is a sign of another kind. -/
theorem expansions_seen_iff (h : Expands front t) : hasShellSigns t = .ok true ↔
    isJson t = .ok false ∧
      ((∀ front', Expands front' t → tick ∉ front') ∨
        ∃ s ≠ .expansion, ShellSign.isIn t s = true) := by
  have hexpansion : ShellSign.isIn t .expansion = true ↔
      ∀ front', Expands front' t → tick ∉ front' :=
    hasExpansion_iff.trans ⟨And.right, fun hticks => ⟨⟨front, h⟩, hticks⟩⟩
  rw [hasShellSigns_iff_or .expansion, hexpansion]

/-- Two expansions, and a literal behind them. -/
theorem expansions_seen_iff_before_literal :
    let front : Text := "$\x7bPREFIX\x7d/".toList
    let t : Text := front ++ "$\x7bNAME\x7d (see `name`)".toList
    Expands front t ∧ hasShellSigns t = .ok true := by
  intro front t
  have h : Expands front t := by decide
  have hticks : ∀ front' ∈ t.inits, Expands front' t → tick ∉ front' := by decide
  have hinits {front' : Text} (h' : Expands front' t) : front' ∈ t.inits :=
    (List.mem_inits front' t).mpr ((List.prefix_append front' expansionMark).trans h')
  exact ⟨h, (expansions_seen_iff h).mpr
    ⟨by decide, .inl fun front' h' => hticks front' (hinits h') h'⟩⟩

/-- An expansion with two backticks before it, and one with none before it and a template behind it,
are not seen. -/
theorem template_hides_expansion :
    let front : Text := "`date` ".toList
    let t : Text := front ++ "$\x7bHOME\x7d".toList
    let t' : Text := "$\x7bHOME\x7d `$\x7bname\x7d`".toList
    Expands front t ∧ front.count tick % 2 = 0 ∧ isJson t = .ok false ∧
      hasShellSigns t = .ok false ∧
      Expands [] t' ∧ isJson t' = .ok false ∧ hasShellSigns t' = .ok false := by
  decide +kernel

end MarkdownFences.Snippet
