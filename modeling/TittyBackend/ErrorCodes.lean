import TittyBackend.Http

/-!
# Error codes

`ApiError::extend` is never called: every error of a resolver gets to the client through the
conversion that async-graphql has for whatever can be displayed.
-/

namespace TittyBackend

open Numerals Programs Resolver

variable {D : Deployment} {via : Conversion} {op : Op} {e : ApiError}

/-- The resolver of `op` can fail with `e`, in some state and with some input. -/
def Op.FailsWith (D : Deployment) (op : Op) (e : ApiError) : Prop :=
  (op.resolver D).run.Yields (.error (.api e))

/-- An execution of `op` that fails with `e` gives its client the error `g`. -/
def Op.Gives (D : Deployment) (op : Op) (via : Conversion) (e : ApiError) (g : GraphqlError) :
    Prop :=
  op.FailsWith D e ∧ Outcome.of via (.error (.api e)) = .error g

/-- What a field of a request comes to is what its resolver returns, converted. -/
lemma yields_field {x : Outcome} :
    (op.field D via).Yields x ↔ ∃ r, (op.resolver D).run.Yields r ∧ x = .of via r := by
  constructor
  · intro h
    obtain ⟨r, hr, hx⟩ := h.of_bind
    exact ⟨r, hr, Prog.yields_ret.1 hx⟩
  · rintro ⟨r, hr, rfl⟩
    exact hr.bind (.ret _)

/-- The errors that clients get are those of failing executions. -/
lemma yields_error {g : GraphqlError} :
    (op.field D via).Yields (.error g) ↔ ∃ e, op.Gives D via e g := by
  rw [yields_field]
  constructor
  · rintro ⟨r, hr, hx⟩
    match r, hr, hx with
    | .ok _, _, hx => cases hx
    | .error .panic, _, hx => cases hx
    | .error (.api e), hr, hx => exact ⟨e, hr, hx.symm⟩
  · rintro ⟨e, hfail, hx⟩
    exact ⟨_, hfail, hx.symm⟩

/-- No failing execution tells its client the code of its error, whichever conversion carries
it. -/
theorem error_codes_lost (D : Deployment) (op : Op) (via : Conversion) (g : GraphqlError) :
    ((op.field D via).Yields (.error g) ↔ ∃ e, op.Gives D via e g) ∧
      ∀ e, op.Gives D via e g → g.message = e.extend.message ∧ g.code ≠ e.extend.code := by
  refine ⟨yields_error, fun e h => ?_⟩
  obtain ⟨-, hg⟩ := h
  obtain rfl : via.carry e = g := Outcome.error.inj hg
  refine ⟨via.message_carry e, ?_⟩
  rw [via.code_carry, e.code_extend]
  exact (Option.some_ne_none _).symm

/-- A caller without a session who asks for its own account. -/
theorem error_codes_lost_me :
    ¬ ∀ (D : Deployment) (op : Op) (via : Conversion) (e : ApiError) (g : GraphqlError),
      op.Gives D via e g → g.code = e.extend.code := by
  intro h
  have hme : (Op.me ⟨"192.0.2.7".toList, none⟩).Gives Known.deployment .question .unauthorized
      (.ofDisplay ApiError.unauthorized.message) := ⟨.ret _, rfl⟩
  have hcode := h _ _ _ _ _ hme
  rw [ApiError.code_extend] at hcode
  cases hcode

end TittyBackend
