import MarkdownFences.Digest
import MarkdownFences.Issue
import MarkdownFences.Json.Reader
import MarkdownFences.Json.Writer
import MarkdownFences.Log
import MarkdownFences.Report
import MarkdownFences.Store
import MarkdownFences.Text.Blank

namespace MarkdownFences

/-- What tells a block from others in the cache, written as one text. -/
def Block.payload (b : Block) : Text :=
  b.file.text ++ s!":{b.openNumber}:".toList ++ b.tag.getD "None".toList ++ ':' :: b.content

/-- The keys of the blocks that were found valid. A cache without a path is never enabled;
`dirty` says that it holds keys that its file may lack. -/
structure ValidationCache where
  path : Option Path
  enabled : Bool
  keys : List Json.Points
  dirty : Bool
  stats : CacheStats
  deriving DecidableEq, Repr

namespace ValidationCache

def new (path : Option Path) (enabled : Bool) : ValidationCache :=
  ⟨path, enabled && path.isSome, [], false, .none⟩

def source : String := "fencecheck.cache"

def entry (level : Log.Level) (event : String) (path : Path) (rest : Text) : Log.Entry :=
  ⟨level, source, s!"event={event} path=".toList ++ path.text ++ rest⟩

def key (digest : Text → Text) (b : Block) : Json.Points := Json.Points.ofText (digest b.payload)

/-- The keys that the text of a cache file lists, each once; a text that is no JSON object lists
none. Nesting beyond the reader's limit leaves it unread. -/
def keysOf (t : Text) : Except Json.Refusal (Option (List Json.Points)) :=
  match Json.read t with
  | .ok (.object members) => .ok (some (members.map (·.1)).eraseDups)
  | .ok _ => .ok none
  | .error e => .error e

/-- Takes the keys of the cache file over. A file that is not there or cannot be read leaves the
cache as it is. -/
def load (c : ValidationCache) (s : Store) :
    Except Json.TooDeep (ValidationCache × List Log.Entry) :=
  match c.enabled, c.path with
  | true, some path =>
    let unreadable (error : Text) :=
      .ok (c, [entry .debug "validation_cache_unreadable" path (" error=".toList ++ error)])
    match s.read path with
    | .error (.missing _) => .ok (c, [])
    | .error e => unreadable e.message
    | .ok bytes =>
      match Text.ofUtf8 bytes with
      | .error e => unreadable e.message.toList
      | .ok t =>
        match keysOf (Text.ofFileText t) with
        | .error (.tooDeep e) => .error e
        | .error e => unreadable e.message.toList
        | .ok none =>
          .ok (c, [entry .debug "validation_cache_ignored" path " reason=not_object".toList])
        | .ok (some keys) =>
          .ok ({ c with keys, dirty := false }, [⟨.debug, source,
            s!"event=validation_cache_loaded entries={keys.length}".toList⟩])
  | _, _ => .ok (c, [])

def isValid (digest : Text → Text) (c : ValidationCache) (b : Block) : ValidationCache × Bool :=
  if !c.enabled then (c, false)
  else if c.keys.contains (key digest b) then ({ c with stats := c.stats.hit }, true)
  else ({ c with stats := c.stats.miss }, false)

def markValid (digest : Text → Text) (c : ValidationCache) (b : Block) : ValidationCache :=
  if !c.enabled then c
  else
    let k := key digest b
    { c with keys := if c.keys.contains k then c.keys else c.keys ++ [k], dirty := true }

def before : Json.Points → Json.Points → Bool
  | _, [] => false
  | [], _ :: _ => true
  | a :: r, b :: s => a < b || (a == b && before r s)

def memberLines : List Json.Points → Text
  | [] => []
  | [k] => "  ".toList ++ Json.writeString k ++ ": null\n".toList
  | k :: ks => "  ".toList ++ Json.writeString k ++ ": null,\n".toList ++ memberLines ks

/-- The text of a cache file: an object with the keys in order, one on a line. -/
def fileText (keys : List Json.Points) : Text :=
  if keys.isEmpty then "\x7b\x7d".toList
  else "\x7b\n".toList ++ memberLines (keys.mergeSort fun a b => !before b a) ++ "\x7d".toList

/-- Writes the cache file if there is something new to write. A file that cannot be written is
only reported; a path that is none is a fault of the caller. -/
def save (c : ValidationCache) (s : Store) :
    Except StoreError (ValidationCache × Store × List Log.Entry) :=
  match c.enabled && c.dirty, c.path with
  | true, some path =>
    match s.makeDirectory path.parent with
    | .error .nullCharacter => .error .nullCharacter
    | .error e =>
      .ok (c, s,
        [entry .warning "validation_cache_save_failed" path (" error=".toList ++ e.message)])
    | .ok made =>
      match made.write path (Text.toUtf8 (fileText c.keys)) with
      | .error .nullCharacter => .error .nullCharacter
      | .error e => .ok (c, made,
          [entry .warning "validation_cache_save_failed" path (" error=".toList ++ e.message)])
      | .ok written => .ok ({ c with dirty := false }, written, [])
  | _, _ => .ok (c, s, [])

end ValidationCache

end MarkdownFences
