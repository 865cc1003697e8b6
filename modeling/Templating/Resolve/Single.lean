import Templating.Environment
import Templating.Placeholder.Pattern
import Templating.Report.Draft

/-!
# Passes that are not repeated

A text is gone through once for its positional placeholders, and once for its
data paths.  A placeholder in what is put into the text stays.

Each positional placeholder is replaced by the segment of the URL at its
position.  Where there is none it stays as written.

Each data path is replaced by the text of the value that its keys lead to, or by
a fallback.  It stays as written when its index is no index or the source fails.
-/

namespace Templating

/-! ## Positional placeholders -/

/-- The draft of one positional placeholder. -/
def answerPositional (segments : Segments) (written : Text) (ref : PositionalRef) : Draft :=
  match segments.segment? ref.key with
  | some segment => .ofText segment
  | none =>
      .noting written ⟨.missingSegment, .positional, written, "no URL segment at this position"⟩

/-- A text with its positional placeholders replaced. -/
def positionalPass (segments : Segments) (t : Text) : Draft :=
  .fill (answerPositional segments) (pieces PositionalRef.read? t)

/-! ## Data paths -/

/-- Why no document has an index. -/
def notFetched (index : Nat) : String := "document " ++ toString index ++ " has not been fetched"

/-- What there is to note on the lookup of keys in a document. -/
def lookupNote? (written : Text) (index : Nat) (keys : List Text) (document : Option Value) :
    Lookup → Option Diagnostic
  | .found _ => none
  | found =>
      match document, found with
      | none, _ => some ⟨.missingDocument, .dataPath, written, notFetched index⟩
      | some _, .null => some ⟨.missingValue, .dataPath, written, "value is null"⟩
      | some _, _ =>
          some ⟨.missingValue, .dataPath, written,
            "no value at " ++ String.ofList (Text.join '.' keys)⟩

/-- The draft of one data path. -/
def answerDataPath (env : Environment) (written : Text) (ref : DataPathRef) : Draft :=
  match readDocumentIndex ref.index with
  | .error e => .refused .dataPath written (.placeholder e)
  | .ok index =>
      match env.source index with
      | .error refusal => .refused .dataPath written refusal
      | .ok document =>
          let found := Value.lookup document ref.keys
          ⟨(env.fallback ref.fallback).forLookup found,
            (lookupNote? written index ref.keys document found).toList, true⟩

/-- A text with its data paths replaced. -/
def dataPathPass (env : Environment) (t : Text) : Draft :=
  .fill (answerDataPath env) (pieces DataPathRef.read? t)

end Templating
