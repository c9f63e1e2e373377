import LinearLight.Delivery
import LinearLight.Tables.Error

/-!
# Writing an artifact to a sink

An artifact goes to a sink of any kind as one text, flushed at the end. A sink that fails makes the
writing fail, as a failure of input or output.

## Main definitions

- `Artifact.writeInto`: what happens between artifact and sink, and the result
-/

namespace LinearLight

/-- An artifact written to a sink that answers as scripted and, when flushed, fails as given or not:
what happened, and the result. -/
def Artifact.writeInto (a : Artifact) (tables : Tables) (script : List WriteAnswer)
    (flush : Option IoError) : Transcript × Except TableError Unit :=
  let transcript := writeTo script flush (a.contents tables)
  (transcript, transcript.outcome.mapError .io)

end LinearLight
