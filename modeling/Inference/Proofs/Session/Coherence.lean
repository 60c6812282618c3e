import Inference.Proofs.Session.History

set_option autoImplicit false
set_option relaxedAutoImplicit false

/-!
# Stage, network and timings

A session keeps its stage, the network that it holds and the timings of its latest pass side by
side, and nothing in the type of a session makes them agree. This file shows that they do: in a
session that a host can get, a network is held in the ready stage and in no other, and timings are
kept there only.

## Main definitions

* `Session.Coherent` — a session whose stage, network and timings agree.

## Main results

* `Effect.coherent` — every action keeps them in agreement.
* `Session.coherent_after` — so does every history of a new session.
-/

namespace Inference

variable {σ : Type}

/-- A session whose stage, network and timings agree. -/
structure Session.Coherent (session : Session σ) : Prop where
  held_iff : session.held.isSome ↔ session.stage = .ready
  stage_of_latest : session.latest.isSome → session.stage = .ready

namespace Session.Coherent

variable {session : Session σ}

/-- The network that is held can be used. -/
lemma ready?_eq (h : session.Coherent) : session.ready? = session.held := by
  cases hheld : session.held with
  | none => rw [ready?, hheld]
  | some bound => exact ready?_eq_some_iff.mpr ⟨h.held_iff.mp (by rw [hheld, Option.isSome]), hheld⟩

/-- A session in the ready stage is ready with some network. -/
lemma exists_ready (h : session.Coherent) (hstage : session.stage = .ready) :
    ∃ bound, session.ready? = some bound := by
  rw [h.ready?_eq]
  exact Option.isSome_iff_exists.mp (h.held_iff.mpr hstage)

/-- At another stage no network is held. -/
lemma held_eq_none (h : session.Coherent) (hstage : session.stage ≠ .ready) :
    session.held = none := by
  rw [← h.ready?_eq]
  exact ready?_of_stage_ne hstage

/-- At another stage no timings are kept. -/
lemma latest_eq_none (h : session.Coherent) (hstage : session.stage ≠ .ready) :
    session.latest = none :=
  Option.not_isSome_iff_eq_none.mp fun hlatest => hstage (h.stage_of_latest hlatest)

end Session.Coherent

/-- A session that is ready with a network is coherent. -/
lemma Session.coherent_of_ready {session : Session σ} {bound : Bound σ}
    (h : session.ready? = some bound) : session.Coherent :=
  ⟨by simp [held_of_ready h, stage_of_ready h], fun _ => stage_of_ready h⟩

/-- A new session is coherent: it holds nothing and keeps no timings. -/
lemma Session.coherent_new (settings : Settings) (registry : Registry σ) :
    (Session.new settings registry).Coherent :=
  ⟨by simp [Session.new], by simp [Session.new]⟩

/-- **One action**: an action leaves stage, network and timings in agreement.

**Proof sketch.** By cases on the effect. A network is only put into a session in the ready stage,
or together with this stage; whatever leaves the stage empties the session. -/
theorem Effect.coherent {session next : Session σ} {journal : List (Event σ)}
    (heffect : Effect session next journal) (h : session.Coherent) : next.Coherent := by
  cases heffect with
  | unchanged | undone => exact h
  | registered => exact ⟨h.held_iff, h.stage_of_latest⟩
  | loaded => exact ⟨by simp, fun _ => rfl⟩
  | passed bound readings hready | written bound v offset bytes hready =>
    have hstage := Session.stage_of_ready hready
    exact ⟨by simp [hstage], fun _ => hstage⟩
  | freed => exact ⟨by simp, by simp⟩

namespace Session

/-- **Histories**: whatever a host does with a coherent session, it stays coherent. -/
theorem Coherent.after {session : Session σ} (h : session.Coherent) (actions : List (Action σ)) :
    (session.after actions).Coherent := by
  induction actions generalizing session with
  | nil => exact h
  | cons action actions ih => exact ih ((session.effect_perform action).coherent h)

/-- Whatever a host does with a new session, it is coherent. -/
theorem coherent_after (settings : Settings) (registry : Registry σ) (actions : List (Action σ)) :
    ((Session.new settings registry).after actions).Coherent :=
  (coherent_new settings registry).after actions

end Session

end Inference
