import WsProto.Lib.Run

/-!
# Simulation between guarded transition systems

A system whose every step can be matched by a run of another one, in related states, only
reaches states that are related to states the other one reaches.  What is known of the
other system's runs is then known, through the relation, of this one's.

* `Reach.simulate` — the induction.  A step may be matched by any number of steps, so a
  coarse step can be cut into the critical sections of a finer model.
-/

namespace Machine

variable {σ τ α β : Type} {step : σ → α → Option σ} {ok : σ → α → Prop} {s₀ s : σ}
  {step' : τ → β → Option τ} {ok' : τ → β → Prop} {t₀ : τ} {R : σ → τ → Prop}

/-- **Simulation.**  Reachable states are related to reachable states. -/
theorem Reach.simulate (h : Reach step ok s₀ s) (h₀ : R s₀ t₀)
    (hstep : ∀ s a s' t, R s t → ok s a → step s a = some s' →
      ∃ t', Reach step' ok' t t' ∧ R s' t') : ∃ t, Reach step' ok' t₀ t ∧ R s t := by
  induction h with
  | refl => exact ⟨t₀, .refl, h₀⟩
  | tail _ hok hs ih =>
      obtain ⟨t, ht, hR⟩ := ih
      obtain ⟨t', ht', hR'⟩ := hstep _ _ _ t hR hok hs
      exact ⟨t', ht.trans ht', hR'⟩

end Machine
