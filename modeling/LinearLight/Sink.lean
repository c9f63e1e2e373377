import LinearLight.Bytes
import LinearLight.SystemError

/-!
# Writing to a sink

A sink takes any number of the bytes it is offered, or fails. The whole text is offered; what was
not accepted is offered again, and so is everything after a call that was only interrupted. A sink
that accepts nothing, or fails in another way, ends the writing. Text accepted to the end is
flushed, once.

## Main definitions

- `WriteAnswer`: what a sink does with one offer
- `Transcript`: what happened between writer and sink
- `offerAll`: the offers made until all is accepted or the sink fails
- `writeTo`: the same with the flush at the end
-/

namespace LinearLight

/-- What a sink does with one offer. -/
inductive WriteAnswer where
  /-- It takes this many bytes, or all of them if there are fewer. -/
  | accept (count : Nat)
  | fail (cause : IoError)
deriving DecidableEq

/-- What happened between writer and sink. -/
structure Transcript where
  offers : List Bytes
  accepted : Bytes
  flushes : Nat
  outcome : Except IoError Unit

namespace Transcript

/-- Nothing happened, with a given outcome. -/
def silent (outcome : Except IoError Unit) : Transcript := ⟨[], [], 0, outcome⟩

/-- One more offer, before all that happened. -/
def after (offer accepted : Bytes) (t : Transcript) : Transcript :=
  { t with offers := offer :: t.offers, accepted := accepted ++ t.accepted }

end Transcript

/-- The offers made for a text to a sink that answers as scripted, and accepts everything when the
script is used up. -/
def offerAll : (script : List WriteAnswer) → (text : Bytes) → Transcript
  | _, [] => .silent (.ok ())
  | [], text => Transcript.after text text (.silent (.ok ()))
  | .accept 0 :: _, text => Transcript.after text [] (.silent (.error .nothingAccepted))
  | .accept count :: script, text =>
    (offerAll script (text.drop count)).after text (text.take count)
  | .fail cause :: script, text =>
    if cause.isInterrupted then (offerAll script text).after text []
    else Transcript.after text [] (.silent (.error cause))

/-- A text written to a sink that answers as scripted and, when flushed, fails as given or not. -/
def writeTo (script : List WriteAnswer) (flush : Option IoError) (text : Bytes) : Transcript :=
  let written := offerAll script text
  match written.outcome with
  | .error _ => written
  | .ok () =>
    { written with
      flushes := 1
      outcome := match flush with | some cause => .error cause | none => .ok () }

end LinearLight
