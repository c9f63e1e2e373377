import LinearLight.Proofs.Except
import LinearLight.Proofs.Sink
import LinearLight.Writer

/-!
# Writing an artifact to a sink, whatever the sink does

An artifact is a text like any other to the sink it is written to, so what is known of sinks holds
of both artifacts and of all tables. A failure of the sink comes back as one of input or output.

## Main statements

- `Artifact.writeInto_orderly`
-/

namespace LinearLight

namespace Artifact

/-- However a sink answers, an artifact reaches it in order: at most one call more than there are
answers, each offering what was not accepted yet; nothing accepted but a beginning of the artifact,
and a flush just when all of it was. The result is the first failure that is no interruption of a
call, or else the failure of the flush, as a failure of input or output. -/
theorem writeInto_orderly (a : Artifact) (tables : Tables) (script : List WriteAnswer)
    (flush : Option IoError) :
    Orderly script flush (a.contents tables) (a.writeInto tables script flush).1 ∧
    ((a.writeInto tables script flush).2 = .ok () ↔
      (a.writeInto tables script flush).1.accepted = a.contents tables ∧ flush = none) ∧
    ∀ e, (a.writeInto tables script flush).2 = .error e ↔ ∃ cause, e = .io cause ∧
      endingFailure? script (a.writeInto tables script flush).1.offers.length flush =
        some cause := by
  have h : Orderly script flush (a.contents tables) (a.writeInto tables script flush).1 :=
    orderly_writeTo script (a.contents tables) flush
  refine ⟨h, mapError_eq_ok.trans h.ok_iff, fun e => mapError_eq_error.trans ?_⟩
  exact exists_congr fun cause => (and_congr (h.error_iff cause) eq_comm).trans and_comm

end Artifact

end LinearLight
