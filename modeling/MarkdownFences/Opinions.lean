import MarkdownFences.Remote.Service
import MarkdownFences.Settings

namespace MarkdownFences

structure Opinions (τ ρ : Type) where
  advisor : Option (Advisor τ ρ)
  state : τ
  lines : List Text
  log : List Log.Entry

namespace Opinions

variable {τ ρ κ : Type}

def skipped (state : τ) : Opinions τ ρ :=
  ⟨none, state, ["⚠ Classifier check skipped (heuristic detection only)".toList], []⟩

def given (a : Advisor τ ρ) (state : τ) : Opinions τ ρ := ⟨some a, state, [], []⟩

def unavailableEntry (settings : Settings) : Log.Entry :=
  ⟨.warning, "fencecheck.service", "event=classifier_unavailable url=".toList ++
    settings.baseUrl ++ " mode=heuristic_only".toList⟩

def chosenModel (settings : Settings) (model : Option Text) : Text :=
  (model.filter (!·.isEmpty)).getD settings.model

/-- The service behind a line gives opinions if it answers the question whether it is there. -/
def ofService (settings : Settings) (model : Option Text)
    (send : κ → Remote.Request → κ × Remote.Reply) (line : κ) :
    Except Fault (Opinions (Remote.Service × κ) Remote.Reply) :=
  let service := Remote.Service.new (chosenModel settings model) settings.sampleChars
    settings.failureThreshold
  let (line, reply) := send line .tags
  match Remote.Service.probe reply with
  | (_, .error f) => .error f
  | (told, .ok true) => .ok ⟨some (Remote.Service.advisor send), (service, line),
      ["✓ Ollama is running (".toList ++ service.model ++ [')']], told⟩
  | (told, .ok false) => .ok ⟨none, (service, line),
      ["⚠ Ollama is not running. Will use heuristic detection only.".toList],
      told ++ [unavailableEntry settings]⟩

end Opinions

end MarkdownFences
