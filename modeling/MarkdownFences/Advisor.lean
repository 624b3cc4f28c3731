import MarkdownFences.Fault
import MarkdownFences.Language
import MarkdownFences.Log

namespace MarkdownFences

inductive Turn (ρ α : Type) where
  | done (a : α)
  | waiting (r : ρ)

/-- A second opinion on the language of content, which may be unavailable. Between the question
and the receipt of its answer other questions can be asked and answered. -/
structure Advisor (τ ρ : Type) where
  ask : τ → Text → τ × List Log.Entry × Turn ρ (Option Language)
  receive : τ → ρ → τ × List Log.Entry × Except Fault (Option Language)

end MarkdownFences
