import MarkdownFences.Logging
import MarkdownFences.Proofs.Result
import MarkdownFences.Proofs.Text.Trim
import MarkdownFences.Settings

namespace MarkdownFences.Settings

section Counts

variable {cause : Cause} {n : Int} {k : Nat}

end Counts

section Addresses

variable {t u : Text}

def IsWeb (t : Text) : Prop := "http://".toList <+: t ∨ "https://".toList <+: t

-- The slashes after the scheme are at the end here, and the rest has no scheme.
example : webAddress (.text "http://".toList) = .error .notHttp := rfl

end Addresses

section Levels

variable {t : Text}

-- The dotless i has the ordinary capital.
example : checkLevel "cr\u0131t\u0131cal".toList = "CRITICAL".toList := by decide +kernel

end Levels

end MarkdownFences.Settings
