import MarkdownFences.Admission
import MarkdownFences.Proofs.Settings.Conversion
import MarkdownFences.Proofs.Text.Utf8
import Mathlib.Tactic.Choose

namespace MarkdownFences.Settings

namespace Field

abbrev Content : Field → Type
  | baseUrl | model | cacheFile | logLevel => Text
  | timeout => Binary64
  | sampleChars | failureThreshold | concurrency => Nat
  | cacheDir => Path
  | cacheEnabled | lenient => Bool

def conversion : (f : Field) → Value → Except Cause f.Content
  | baseUrl => webAddress
  | model | cacheFile => Value.toText
  | timeout => Value.number
  | sampleChars => count .sampleBelowOne
  | failureThreshold | concurrency => count .belowOne
  | cacheDir => Value.toPath
  | cacheEnabled | lenient => Value.toFlag
  | logLevel => levelName

def given : (f : Field) → f.Content → Value
  | baseUrl | model | cacheFile | logLevel => .text
  | timeout => .real
  | sampleChars | failureThreshold | concurrency => fun n => .whole n
  | cacheDir => .path
  | cacheEnabled | lenient => .flag

theorem mem_all (f : Field) : f ∈ all := by
  cases f <;> decide

end Field

def get (s : Settings) : (f : Field) → f.Content
  | .baseUrl => s.baseUrl
  | .model => s.model
  | .timeout => s.timeout
  | .sampleChars => s.sampleChars
  | .failureThreshold => s.failureThreshold
  | .concurrency => s.concurrency
  | .cacheDir => s.cacheDir
  | .cacheFile => s.cacheFile
  | .cacheEnabled => s.cacheEnabled
  | .lenient => s.lenient
  | .logLevel => s.logLevel

/-- What an offer comes to for one setting. -/
def Offer.outcome (o : Offer) (f : Field) : Except Problem f.Content :=
  convert o f (default.get f) f.conversion

variable {src : Sources} {o : Offer} {s : Settings} {f : Field}

/-- What those who use the settings rely on. -/
structure Sound (s : Settings) : Prop where
  sampleChars : 1 ≤ s.sampleChars
  failureThreshold : 1 ≤ s.failureThreshold
  concurrency : 1 ≤ s.concurrency
  web : IsWeb s.baseUrl
  slash : s.baseUrl.getLast? ≠ some '/'
  level : (Log.Level.ofName? s.logLevel).isSome

theorem Sound.tokensOf (h : Sound s) : Admission.tokensOf s.concurrency = .ok s.concurrency := by
  have hlow := h.concurrency
  rw [Admission.tokensOf, if_neg (by omega), Int.toNat_natCast]

end MarkdownFences.Settings
